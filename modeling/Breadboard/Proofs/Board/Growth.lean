/-
  Breadboard.Proofs.Board.Growth — the lines of the serial monitor while its log goes on.

  During a run a log only goes on: by prints and by changes of the speed (`SerialLog.Call`). All that
  the statements of a sketch do to it are such calls (`Session.serial_run`), and a mark goes back over
  any of them (`SerialLog.atMark_run`).

  Proved: the lines that a log had stay as they are, but for the last one. That one keeps its time and
  its text may grow at the end, unless the last print has ended it (`KeepsLines`). So it is for the
  log at any earlier mark of a run (`lines_stay`).
-/

import Breadboard.Proofs.Board.Fragments
import Breadboard.Proofs.Run.Review

namespace Breadboard

namespace SerialLog

/-! ## A log that goes on -/

/-- What a run may do to its log. -/
inductive Call where
  | begin (baud : Nat)
  | append (e : SerialEntry)
  deriving DecidableEq, Repr

def apply (l : SerialLog) : Call → SerialLog
  | .begin baud => l.begin baud
  | .append e => l.append e

def run (l : SerialLog) (calls : List Call) : SerialLog := calls.foldl apply l

theorem run_append (l : SerialLog) (calls calls' : List Call) :
    l.run (calls ++ calls') = (l.run calls).run calls' := List.foldl_append

theorem entries_run (l : SerialLog) (calls : List Call) : l.entries <+: (l.run calls).entries := by
  induction calls generalizing l with
  | nil => exact List.prefix_refl _
  | cons c calls ih =>
    refine List.IsPrefix.trans ?_ (ih (l.apply c))
    cases c with
    | begin baud => exact List.prefix_refl _
    | append e =>
      show l.entries <+: (l.append e).entries
      rw [entries_append]
      exact List.prefix_append _ _

/-- The mark of a log goes back to it from wherever the log has gone on to. -/
theorem atMark_run (l : SerialLog) (calls : List Call) : (l.run calls).atMark l.mark = l := by
  suffices h : ∀ k : SerialLog, k.atMark l.mark = l → (k.run calls).atMark l.mark = l from h l l.atMark_mark
  intro k hk
  induction calls generalizing k with
  | nil => exact hk
  | cons c calls ih =>
    refine ih (k.apply c) ?_
    cases c with
    | begin baud => exact atMark_begin hk baud
    | append e => exact atMark_append hk e

end SerialLog

/-- To the log a statement is at most one call. -/
theorem Board.serial_execute (b : Board) (now : Nat) (st : Statement) :
    ∃ calls, (b.execute now st).serial = b.serial.run calls := by
  cases st with
  | mode pin m => exact ⟨[], rfl⟩
  | write pin l => exact ⟨[], rfl⟩
  | delay d => exact ⟨[], rfl⟩
  | begin baud => exact ⟨[.begin baud], rfl⟩
  | print text newline => exact ⟨[.append ⟨now, text, newline⟩], rfl⟩
  | unrecognized => exact ⟨[], rfl⟩

namespace Session

/-- Nothing but a stop does more to the log than to go on with it. -/
theorem serial_apply (s : Session) {e : Event} (noStop : e ≠ .stop) :
    ∃ calls, (s.apply e).board.serial = s.board.serial.run calls := by
  cases e with
  | load source =>
    refine ⟨[], ?_⟩
    simp only [apply, load, loadProgram]
    split <;> rfl
  | start =>
    refine ⟨[], ?_⟩
    simp only [apply, start]
    split <;> rfl
  | stop => exact absurd rfl noStop
  | tick now =>
    show ∃ calls, (s.tick now).board.serial = _
    rcases tick_cases s now with ⟨_, _, h⟩ | ⟨_, _, h⟩ | ⟨_, _, _, h⟩ | ⟨n, _, _, h⟩
    · exact ⟨[], by rw [h]; rfl⟩
    · exact ⟨[], by rw [h]; rfl⟩
    · exact ⟨[], by rw [h]; rfl⟩
    · rw [h, record_board]
      exact Board.serial_execute _ now n.statement
  | attach p => exact ⟨[], rfl⟩
  | detach id => exact ⟨[], rfl⟩

theorem serial_run (s : Session) {es : List Event} (noStop : ∀ e ∈ es, e ≠ .stop) :
    ∃ calls, (s.run es).board.serial = s.board.serial.run calls := by
  refine run_induction (motive := fun t => ∃ calls, t.board.serial = s.board.serial.run calls) ⟨[], rfl⟩ ?_
  intro t e he ht
  obtain ⟨calls, ht⟩ := ht
  obtain ⟨calls', he⟩ := t.serial_apply (noStop e he)
  exact ⟨calls ++ calls', by rw [he, ht, SerialLog.run_append]⟩

end Session

namespace SerialLog

/-! ## Lines that stay -/

/-- What has become of the lines of a log in one that has gone on from it. -/
structure KeepsLines (l l' : SerialLog) : Prop where
  length_le : l.lines.length ≤ l'.lines.length
  done : ∀ k, k + 1 < l.lines.length → l'.lines[k]? = l.lines[k]?
  last : ∀ line, l.lines.getLast? = some line → ∃ line', l'.lines[l.lines.length - 1]? = some line' ∧
    line'.time = line.time ∧ line.text <+: line'.text ∧ (l.endsOpen = false → line' = line)

theorem KeepsLines.of_nil {l l' : SerialLog} (h : l.lines = []) : KeepsLines l l' where
  length_le := by simp [h]
  done k hk := by simp [h] at hk
  last line hline := by simp [h] at hline

theorem KeepsLines.of_split {l l' : SerialLog} {done rest : List SerialLine} {line line' : SerialLine}
    (h : l.lines = done ++ [line]) (h' : l'.lines = done ++ line' :: rest) (time : line'.time = line.time)
    (text : line.text <+: line'.text) (ended : l.endsOpen = false → line' = line) : KeepsLines l l' where
  length_le := by simp [h, h']
  done k hk := by
    have hk : k < done.length := by simpa [h] using hk
    rw [h, h', List.getElem?_append_left hk, List.getElem?_append_left hk]
  last x hx := by
    obtain rfl : line = x := by simpa [h] using hx
    exact ⟨line', by simp [h, h'], time, text, ended⟩

/-- The rows behind an open one leave it on its line and add to it at its end. -/
theorem exists_onto (r : MonitorRow) (rs : List MonitorRow) :
    ∃ r' rest, r.onto rs = r' :: rest ∧ r'.opener = r.opener ∧ r.text <+: r'.text := by
  cases rs with
  | nil => exact ⟨r, [], rfl, rfl, List.prefix_refl _⟩
  | cons s rs => exact ⟨r.join s, rs, rfl, rfl, by rw [MonitorRow.text_join]; exact List.prefix_append _ _⟩

theorem keepsLines_of_entries {l l' : SerialLog} (h : l.entries <+: l'.entries) : KeepsLines l l' := by
  obtain ⟨new, hnew⟩ := h
  have before := lines_eq_rows l
  have after := lines_eq_rows l'
  rw [← hnew, fragments_append] at after
  have hopen : l.endsOpen = leavesOpen (fragments l.entries) := (leavesOpen_fragments l.entries).symm
  cases hl : leavesOpen (fragments l.entries) with
  | false =>
    rw [rows_append hl, List.map_append, ← before] at after
    rcases List.eq_nil_or_concat l.lines with hnil | ⟨done, line, hline⟩
    · exact .of_nil hnil
    · rw [List.concat_eq_append] at hline
      rw [hline, List.append_assoc, List.singleton_append] at after
      exact .of_split hline after rfl (List.prefix_refl _) fun _ => rfl
  | true =>
    obtain ⟨done, row, hrow, hseam⟩ := exists_rows_append hl
    obtain ⟨row', rest, honto, opener, text⟩ := exists_onto row (rows (fragments new))
    rw [hrow, List.map_append] at before
    rw [hseam, honto, List.map_append] at after
    refine .of_split before after ?_ text fun ended => ?_
    · rw [MonitorRow.line, MonitorRow.line, opener]
    · rw [hopen, hl] at ended
      cases ended

/-- A log that goes on keeps the lines that it had: there are no fewer, all but the last one are the same, and the last
one has kept its time and begins with the text that it had; it is the same if the last print ended it. So it is for the
log at each mark that was taken on the way, and in a session for the log at any mark taken since the last stop. -/
theorem lines_stay (l : SerialLog) (calls : List Call) :
    KeepsLines l (l.run calls) ∧
      (∀ early late, calls = early ++ late →
        (l.run calls).atMark (l.run early).mark = l.run early ∧
          KeepsLines ((l.run calls).atMark (l.run early).mark) (l.run calls)) ∧
      ∀ (s : Session) (events : List Session.Event), (∀ e ∈ events, e ≠ .stop) →
        let log := (s.run events).board.serial
        log.atMark s.board.serial.mark = s.board.serial ∧ KeepsLines (log.atMark s.board.serial.mark) log := by
  refine ⟨keepsLines_of_entries (entries_run l calls), ?_, ?_⟩
  · intro early late hsplit
    rw [hsplit, run_append, atMark_run]
    exact ⟨rfl, keepsLines_of_entries (entries_run _ late)⟩
  · intro s events noStop log
    obtain ⟨more, hlog⟩ := s.serial_run noStop
    have hlog : log = s.board.serial.run more := hlog
    rw [hlog, atMark_run]
    exact ⟨rfl, keepsLines_of_entries (entries_run _ more)⟩

/-- A line that is open at the mark goes on in the next print, and a session that prints two lines in turn. -/
theorem lines_stay_mixed :
    let l := ofEntries [⟨5, "a\nb".toList, false⟩] none
    let calls := [.begin 9600, .append ⟨7, "c\nd".toList, true⟩, .append ⟨9, [], false⟩]
    let p : Program := { loop := [⟨.print "x".toList false, [], 2⟩, ⟨.print "y\nz".toList true, [], 3⟩] }
    let s := ((Session.new {} 1000).loadProgram p).run [.start, .tick 1, .tick 2, .tick 3]
    let lamp : Peripheral := ⟨"lamp".toList, .redLed, .number 13, (0, 0)⟩
    let events : List Session.Event := [.load "void loop() {}".toList, .tick 4, .attach lamp, .tick 5]
    let log := (s.run events).board.serial
    l.lines = [⟨5, "a".toList⟩, ⟨5, "b".toList⟩] ∧
      (l.run calls).lines = [⟨5, "a".toList⟩, ⟨5, "bc".toList⟩, ⟨7, "d".toList⟩, ⟨9, []⟩] ∧
      KeepsLines l (l.run calls) ∧ calls = calls.take 1 ++ calls.drop 1 ∧
      (l.run calls).atMark (l.run (calls.take 1)).mark = l.run (calls.take 1) ∧
      (∀ e ∈ events, e ≠ .stop) ∧
      s.board.serial.lines = [⟨1, "xy".toList⟩, ⟨2, "z".toList⟩, ⟨3, "x".toList⟩] ∧
      log.lines =
        [⟨1, "xy".toList⟩, ⟨2, "z".toList⟩, ⟨3, "xy".toList⟩, ⟨4, "z".toList⟩, ⟨5, "x".toList⟩] ∧
      log.atMark s.board.serial.mark = s.board.serial ∧ KeepsLines (log.atMark s.board.serial.mark) log := by
  intro l calls p s lamp events log
  obtain ⟨kept, marked, session⟩ := lines_stay l calls
  have split : calls = calls.take 1 ++ calls.drop 1 := rfl
  have noStop : ∀ e ∈ events, e ≠ .stop := by decide
  obtain ⟨back, stayed⟩ := session s events noStop
  exact ⟨by decide, by decide, kept, split, (marked _ _ split).1, noStop, by decide, by decide, back, stayed⟩

end SerialLog

end Breadboard
