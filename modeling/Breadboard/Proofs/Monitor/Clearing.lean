/-
  Breadboard.Proofs.Monitor.Clearing — what the serial pane shows after the view was cleared.

  Clearing hides so many lines from the top as there are at that moment. A log only grows until its
  run is stopped, but its last line may grow too: if the last print left it open, the next one goes
  on it, and so on a line that is hidden.

  Proved: no key but those that stop or restart a run or clear the view takes a print from the log
  or touches what is hidden (`grows_press`), nor does a run of such keys and of polls. So the pane
  works on the lines of what was printed since, put together on their own, if the last line was
  ended when the view was cleared. If it was open, the first of these is missing, which is just as
  well as long as it has no character (`shown_after_clearing`). A print of characters on an open
  line is never shown (`open_line_stays_hidden`).
-/

import Breadboard.Proofs.Board.Growth
import Breadboard.Proofs.Board.Stream
import Breadboard.Proofs.Monitor.Review
import Breadboard.Proofs.Monitor.Source

namespace Breadboard

/-! ## A log that grows -/

namespace Session

/-- Nothing but a stop takes a print from the log. -/
theorem entries_apply (s : Session) {e : Event} (noStop : e ≠ .stop) :
    s.board.serial.entries <+: (s.apply e).board.serial.entries := by
  obtain ⟨calls, h⟩ := s.serial_apply noStop
  rw [h]
  exact SerialLog.entries_run _ calls

theorem entries_run (s : Session) {es : List Event} (noStop : ∀ e ∈ es, e ≠ .stop) :
    s.board.serial.entries <+: (s.run es).board.serial.entries := by
  obtain ⟨calls, h⟩ := s.serial_run noStop
  rw [h]
  exact SerialLog.entries_run _ calls

end Session

/-- What the sketch on a bench has printed. -/
def Bench.printed (b : Bench) : List SerialEntry := b.session.board.serial.entries

theorem Bench.printed_apply (b : Bench) {e : Event} (noStop : e ≠ .stop) : b.printed <+: (b.apply e).printed := by
  unfold printed
  rw [session_apply]
  refine Session.entries_run _ fun c hc => ?_
  rcases mem_calls noStop hc with rfl | ⟨now, rfl⟩ <;> simp

namespace Monitor

/-! ## Keys that leave the output alone -/

/-- Whether a key neither stops nor restarts a run nor clears the view. -/
def leavesOutput : Key → Bool
  | .char ' ' | .char 'r' | .char 'c' => false
  | _ => true

/-- From one monitor to another the log has grown at most, and just as many lines are hidden. -/
structure Grows (m m' : Monitor) : Prop where
  printed : m.bench.printed <+: m'.bench.printed
  hidden : m'.hidden = m.hidden

variable {m m' : Monitor}

namespace Grows

theorem refl (m : Monitor) : Grows m m := ⟨List.prefix_refl _, rfl⟩

theorem trans {m'' : Monitor} (h : Grows m m') (h' : Grows m' m'') : Grows m m'' :=
  ⟨h.printed.trans h'.printed, h'.hidden.trans h.hidden⟩

end Grows

theorem grows_togglePause (m : Monitor) (now : Nat) : Grows m (m.togglePause now) := by
  unfold togglePause
  split
  · exact ⟨m.bench.printed_apply (e := .pause) (by simp), rfl⟩
  · split
    · exact ⟨m.bench.printed_apply (e := .resume now) (by simp), rfl⟩
    · exact .refl m

theorem grows_stepLive (m : Monitor) (now : Nat) : Grows m (m.stepLive now) := by
  have started : m.bench.printed <+: (if m.bench.clock.isStopped then m.bench.start now else m.bench).printed := by
    split
    · exact m.bench.printed_apply (e := .start now) (by simp)
    · exact List.prefix_refl _
  have paused : m.bench.printed <+: (if m.bench.clock.isStopped then m.bench.start now else m.bench).pause.printed :=
    started.trans (Bench.printed_apply _ (e := .pause) (by simp))
  rw [stepLive_eq m now rfl]
  exact ⟨paused.trans (Bench.printed_apply _ (e := .step) (by simp)), rfl⟩

theorem grows_forward (m : Monitor) (now : Nat) : Grows m (m.forward now) := by
  unfold forward
  split
  · exact ⟨List.prefix_refl _, rfl⟩
  · exact ⟨List.prefix_refl _, rfl⟩
  · exact grows_stepLive m now

theorem grows_backward (m : Monitor) : Grows m m.backward := by
  have paused : m.bench.printed <+: m.bench.pause.printed := m.bench.printed_apply (e := .pause) (by simp)
  unfold backward
  split
  · exact ⟨List.prefix_refl _, rfl⟩
  · dsimp only
    split
    · split <;> exact ⟨paused, rfl⟩
    · split <;> exact ⟨paused, rfl⟩

theorem grows_reload (m : Monitor) (file : Except FileFault Text) : Grows m (m.reload file) := by
  have loaded : ∀ source, Grows m (m.takeSource source) := by
    intro source
    have printed := m.bench.session.entries_apply (e := .load source) (by simp)
    unfold takeSource
    dsimp only
    split <;> exact ⟨printed, rfl⟩
  unfold reload
  split
  · split
    · exact loaded _
    · exact ⟨List.prefix_refl _, rfl⟩
  · exact ⟨List.prefix_refl _, rfl⟩

theorem grows_scrollUp (m : Monitor) : Grows m m.scrollUp := by
  unfold scrollUp
  split <;> exact ⟨List.prefix_refl _, rfl⟩

theorem grows_scrollDown (m : Monitor) : Grows m m.scrollDown := by
  unfold scrollDown
  split <;> exact ⟨List.prefix_refl _, rfl⟩

theorem grows_press {k : Key} (h : leavesOutput k = true) (m : Monitor) (now : Nat) (file : Except FileFault Text) :
    Grows m (m.press now file k) := by
  unfold press
  split
  · exact ⟨List.prefix_refl _, rfl⟩
  · exact ⟨List.prefix_refl _, rfl⟩
  · cases h
  · exact grows_togglePause m now
  · exact grows_forward m now
  · exact grows_forward m now
  · exact grows_backward m
  · cases h
  · exact grows_reload m file
  · cases h
  · exact ⟨List.prefix_refl _, rfl⟩
  · exact ⟨List.prefix_refl _, rfl⟩
  · exact grows_scrollUp m
  · exact grows_scrollDown m
  · exact .refl m
  · exact .refl m

theorem grows_poll (m : Monitor) (now : Nat) : Grows m (m.poll now) := by
  rw [poll_eq]
  exact ⟨m.bench.printed_apply (e := .poll now) (by simp), rfl⟩

theorem grows_run {events : List Event} (calm : ∀ k ∈ keys events, leavesOutput k = true) (m : Monitor) :
    Grows m (m.run events) := by
  induction events generalizing m with
  | nil => exact .refl m
  | cons e events ih =>
    cases e with
    | poll now => exact (grows_poll m now).trans (ih calm _)
    | key k now file =>
      have calm : ∀ c ∈ k :: keys events, leavesOutput c = true := calm
      rw [List.forall_mem_cons] at calm
      exact (grows_press calm.1 m now file).trans (ih calm.2 _)

/-! ## The cleared view -/

/-- Whatever is pressed and polled after the view was cleared, but for another clear, a stop or a restart: while the live
state is shown, the serial pane works on the lines of what was printed since, put together on their own, or on these
lines without the first if the last line was open when the view was cleared. So all characters printed since are shown,
and no other ones, if and only if the last line was ended or the first line of what was printed since has no
character. -/
theorem shown_after_clearing (m : Monitor) (now : Nat) (file : Except FileFault Text) (events : List Event)
    (calm : ∀ k ∈ keys events, leavesOutput k = true)
    (live : ((m.press now file (.char 'c')).run events).review = none) :
    let m' := (m.press now file (.char 'c')).run events
    let old := m.bench.session.board.serial
    ∃ printed : List SerialEntry, m'.bench.printed = m.bench.printed ++ printed ∧
      let new := SerialLog.ofEntries printed none
      m'.serialView.lines = new.lines.drop (if old.endsOpen then 1 else 0) ∧
        (m'.serialView.lines.flatMap (·.text) = new.sent.filter (· ≠ '\n') ↔
          (old.endsOpen = true → ∀ first, new.lines.head? = some first → first.text = [])) := by
  intro m' old
  obtain ⟨⟨printed, grown⟩, hidden⟩ := grows_run calm (m.press now file (.char 'c'))
  refine ⟨printed, grown.symm, ?_⟩
  intro new
  have lines : m'.serialView.lines = new.lines.drop (if old.endsOpen then 1 else 0) := by
    have log : m'.serialView.log = m'.bench.session.board.serial := by
      show (if m'.review.isSome then _ else m'.bench.session.board.serial) = _
      rw [live]
      rfl
    have shown : m'.serialView.hidden = old.lines.length := hidden
    rw [Pane.SerialView.lines, log, shown]
    refine SerialLog.lines_grown ?_
    rw [SerialLog.entries_ofEntries]
    exact grown.symm
  refine ⟨lines, ?_⟩
  rw [lines, ← SerialLog.flatMap_lines_text]
  cases old.endsOpen with
  | false => simp
  | true =>
    rcases new.lines with _ | ⟨first, rest⟩
    · simp
    · simp

/-- The view is cleared behind a line that has ended; what is printed then is shown, also after a look back. -/
theorem shown_after_clearing_println :
    let source := "void loop() \x7b\nSerial.println(1);\nSerial.print(2);\n\x7d\n".toList
    let press (k : Key) : Event := .key k 300 (.ok [])
    let m := ({ bench := { session := (Session.new {} 1000).load source }, source } : Monitor).run [press .right]
    let events := [press .right, press .left, .poll 400, press .tab, press .right]
    let m' := (m.press 300 (.ok []) (.char 'c')).run events
    (∀ k ∈ keys events, leavesOutput k = true) ∧ m'.review = none ∧ m'.hidden = 1 ∧
      m'.serialView.lines = [⟨100, "2".toList⟩] ∧
      ∃ printed, m'.bench.printed = m.bench.printed ++ printed ∧
        m'.serialView.lines.flatMap (·.text) = (SerialLog.ofEntries printed none).sent.filter (· ≠ '\n') := by
  intro source press m events m'
  have calm : ∀ k ∈ keys events, leavesOutput k = true := by decide
  obtain ⟨live, ended, hidden, lines⟩ : m'.review = none ∧ m.bench.session.board.serial.endsOpen = false ∧
      m'.hidden = 1 ∧ m'.serialView.lines = [⟨100, "2".toList⟩] := by decide +kernel
  obtain ⟨printed, grown, -, whole⟩ := shown_after_clearing m 300 (.ok []) events calm live
  refine ⟨calm, live, hidden, lines, printed, grown, whole.2 fun hopen => ?_⟩
  rw [ended] at hopen
  cases hopen

/-- The view is cleared behind a print that left its line open: the next print goes on the hidden line and is not
shown. -/
theorem open_line_stays_hidden :
    ¬ ∀ (source : Text) (past events : List Event) (now : Nat) (file : Except FileFault Text),
      let m := ({ bench := { session := (Session.new {} 1000).load source }, source } : Monitor).run past
      let m' := (m.press now file (.char 'c')).run events
      m.bench.clock.isStopped = false → m.review = none → (∀ k ∈ keys events, leavesOutput k = true) →
        m'.review = none → ∀ printed, m'.bench.printed = m.bench.printed ++ printed →
          m'.serialView.lines.flatMap (·.text) = (SerialLog.ofEntries printed none).sent.filter (· ≠ '\n') := by
  intro allShown
  let source := "void loop() \x7b\nSerial.print(1);\nSerial.print(2);\n\x7d\n".toList
  let tick : List Event := [.key .right 300 (.ok [])]
  let m := ({ bench := { session := (Session.new {} 1000).load source }, source } : Monitor).run tick
  let m' := (m.press 300 (.ok []) (.char 'c')).run tick
  let two : List SerialEntry := [⟨100, "2".toList, false⟩]
  obtain ⟨running, live, shown, printed, missing⟩ : m.bench.clock.isStopped = false ∧ m.review = none ∧
      m'.review = none ∧ m'.bench.printed = m.bench.printed ++ two ∧
      m'.serialView.lines.flatMap (·.text) ≠ (SerialLog.ofEntries two none).sent.filter (· ≠ '\n') := by
    decide +kernel
  exact missing (allShown source tick tick 300 (.ok []) running live (by decide) shown two printed)

end Monitor

end Breadboard
