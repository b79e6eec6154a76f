/-
  Breadboard.Proofs.Monitor.Source — the sketch that is shown is the one that runs.

  A monitor keeps the text of its sketch and perhaps one that waits, and its session keeps their
  programs. Texts move when a sketch is read again and when a run is stopped; programs move when
  the session takes a load and when it is stopped. Which of the two a load does depends on the
  session, while the keys ask the clock. `Bench.Paired` says that clock and session agree on
  whether a run is on, and `Matches` that the programs are those of the texts.

  Proved: every event of the clock keeps the pair (`Bench.paired_apply`), every key and every poll
  keeps texts and programs matched (`inStep_apply`), and so they stay matched whatever is pressed
  and read (`source_matches_program`).
-/

import Mathlib
import Breadboard.Monitor.Basic
import Breadboard.Proofs.Run.HostTime
import Breadboard.Proofs.Run.Restart

namespace Breadboard

/-! ## Clock and session -/

theorem Session.tick_program (s : Session) (now : Nat) : (s.tick now).program = s.program := by
  rcases tick_cases s now with ⟨_, _, h⟩ | ⟨_, _, h⟩ | ⟨_, _, _, h⟩ | ⟨n, _, _, h⟩ <;> rw [h]
  · rfl
  · rw [record_program]; rfl

/-- Programs come from loads, and take over when the session is stopped. -/
theorem Session.programs_apply (s : Session) {e : Event} (noLoad : e.source? = none) (noStop : e ≠ .stop) :
    (s.apply e).program = s.program ∧ (s.apply e).pending = s.pending := by
  cases e with
  | load source => cases noLoad
  | start =>
    simp only [apply, start]
    split <;> exact ⟨rfl, rfl⟩
  | stop => exact absurd rfl noStop
  | tick now => exact ⟨tick_program s now, congrArg (·.pending) (tick_pending s now s.pending)⟩
  | attach p => exact ⟨rfl, rfl⟩
  | detach id => exact ⟨rfl, rfl⟩

namespace Bench

variable {b : Bench} {e : Event}

theorem mem_tickEvents {period time n : Nat} {c : Session.Event} (h : c ∈ tickEvents period time n) :
    ∃ now, c = .tick now := by
  induction n generalizing time with
  | zero => cases h
  | succ n ih =>
    rcases List.mem_cons.1 h with rfl | h
    · exact ⟨_, rfl⟩
    · exact ih h

/-- All that a clock asks of its session, but for a stop. -/
theorem mem_calls (noStop : e ≠ .stop) {c : Session.Event} (h : c ∈ b.calls e) : c = .start ∨ ∃ now, c = .tick now := by
  cases e with
  | start now =>
    simp only [calls] at h
    split at h
    · exact Or.inl (List.mem_singleton.1 h)
    · cases h
  | stop => exact absurd rfl noStop
  | pause => cases h
  | resume now => cases h
  | poll now => exact Or.inr (mem_tickEvents h)
  | step => exact Or.inr (mem_tickEvents h)
  | runTicks n =>
    simp only [calls] at h
    split at h
    · rcases List.mem_cons.1 h with h | h
      · exact Or.inl h
      · exact Or.inr (mem_tickEvents h)
    · exact Or.inr (mem_tickEvents h)

theorem programs_apply (b : Bench) (noStop : e ≠ .stop) :
    (b.apply e).session.program = b.session.program ∧ (b.apply e).session.pending = b.session.pending := by
  rw [session_apply]
  refine Session.run_induction
    (motive := fun s => s.program = b.session.program ∧ s.pending = b.session.pending) ⟨rfl, rfl⟩ fun s c hc hs => ?_
  have hcall : c.source? = none ∧ c ≠ .stop := by
    rcases mem_calls noStop hc with rfl | ⟨now, rfl⟩ <;> exact ⟨rfl, by simp⟩
  obtain ⟨hprogram, hpending⟩ := s.programs_apply hcall.1 hcall.2
  exact ⟨hprogram.trans hs.1, hpending.trans hs.2⟩

/-- The clock is stopped just as long as the session is idle. -/
def Paired (b : Bench) : Prop := b.clock.isStopped = !b.session.isStarted

theorem paired_apply (h : b.Paired) (e : Event) : (b.apply e).Paired := by
  by_cases he : e = .stop
  · subst he
    rfl
  have noStop : ∀ {time n}, ∀ c ∈ tickEvents b.clock.period time n, c ≠ .stop := fun c hc => by
    obtain ⟨now, rfl⟩ := mem_tickEvents hc
    simp
  unfold Paired
  cases hs : b.clock.isStopped with
  | false =>
    have started : b.session.isStarted = true := by simpa [Paired, hs] using h
    rw [(clock_of_running hs he).1, session_of_running hs he, Session.isStarted_run started noStop]
    rfl
  | true =>
    by_cases hb : e.begins = true
    · have begun := driven_begin hs hb
      rw [begun.running, begun.session, Session.isStarted_run (Session.isStarted_start _) noStop]
      rfl
    · rw [(apply_of_stopped hs he (by simpa using hb)).1]
      exact h

end Bench

namespace Monitor

/-! ## Texts and programs -/

/-- The session's programs are those of the texts, and the clock is paired with the session. -/
structure Matches (bench : Bench) (source : Text) (pending : Option Text) : Prop where
  program : bench.session.program = .ofSource source
  pending : bench.session.pending = pending.map .ofSource
  paired : bench.Paired

namespace Matches

variable {bench : Bench} {source : Text} {pending : Option Text}

theorem apply (h : Matches bench source pending) {e : Bench.Event} (noStop : e ≠ .stop) :
    Matches (bench.apply e) source pending where
  program := (bench.programs_apply noStop).1.trans h.program
  pending := (bench.programs_apply noStop).2.trans h.pending
  paired := Bench.paired_apply h.paired e

/-- What waits takes over on both sides. -/
theorem stop (h : Matches bench source pending) : Matches bench.stop (pending.getD source) none where
  program := by
    show bench.session.pending.getD bench.session.program = _
    rw [h.pending, h.program]
    cases pending <;> rfl
  pending := rfl
  paired := rfl

theorem load_of_isStarted (h : Matches bench source pending) (started : bench.session.isStarted = true) (text : Text) :
    Matches { bench with session := bench.session.load text } source (some text) := by
  rw [Session.load_of_isStarted started]
  exact ⟨h.program, rfl, h.paired⟩

theorem load_of_idle (h : Matches bench source pending) (idle : bench.session.isStarted = false) (text : Text) :
    Matches { bench with session := bench.session.load text } text pending := by
  rw [Session.load_of_idle idle]
  exact ⟨rfl, h.pending, h.paired⟩

end Matches

/-! ## Keys -/

/-- What the monitor shows and keeps waiting is what its session runs and keeps waiting. -/
def InStep (m : Monitor) : Prop := Matches m.bench m.source m.pending

variable {m : Monitor}

theorem inStep_start (h : m.InStep) (now : Nat) : (m.start now).InStep :=
  Matches.apply h (e := .start now) (by simp)

theorem inStep_stop (h : m.InStep) : m.stop.InStep := Matches.stop h

theorem inStep_toggleRun (h : m.InStep) (now : Nat) : (m.toggleRun now).InStep := by
  unfold toggleRun
  split
  · exact inStep_start h now
  · exact inStep_stop h

theorem inStep_togglePause (h : m.InStep) (now : Nat) : (m.togglePause now).InStep := by
  unfold togglePause
  split
  · exact Matches.apply h (e := .pause) (by simp)
  · split
    · exact Matches.apply h (e := .resume now) (by simp)
    · exact h

theorem inStep_stepLive (h : m.InStep) (now : Nat) : (m.stepLive now).InStep := by
  have started : Matches (if m.bench.clock.isStopped then m.bench.start now else m.bench) m.source m.pending := by
    split
    · exact Matches.apply h (e := .start now) (by simp)
    · exact h
  have paused : Matches (if m.bench.clock.isStopped then m.bench.start now else m.bench).pause m.source m.pending :=
    started.apply (e := .pause) (by simp)
  rw [stepLive_eq m now rfl]
  exact paused.apply (e := .step) (by simp)

theorem inStep_forward (h : m.InStep) (now : Nat) : (m.forward now).InStep := by
  unfold forward
  split
  · exact h
  · exact h
  · exact inStep_stepLive h now

theorem inStep_backward (h : m.InStep) : m.backward.InStep := by
  unfold backward
  split
  · exact h
  · have paused : Matches m.bench.pause m.source m.pending := Matches.apply h (e := .pause) (by simp)
    dsimp only
    split
    · split <;> exact paused
    · split <;> exact paused

/-- The texts go the way that the programs go: the session is asked on both sides. -/
theorem inStep_takeSource (h : m.InStep) (text : Text) : (m.takeSource text).InStep := by
  unfold takeSource
  cases hs : m.bench.session.isStarted with
  | true =>
    have started : (m.bench.session.load text).isStarted = true := by
      rw [Session.load_of_isStarted hs]
      exact hs
    simp only [started, if_true]
    exact Matches.load_of_isStarted h hs text
  | false =>
    have idle : (m.bench.session.load text).isStarted = false := by
      rw [Session.load_of_idle hs]
      exact hs
    simp only [idle, Bool.false_eq_true, if_false]
    exact Matches.load_of_idle h hs text

theorem inStep_reload (h : m.InStep) (file : Except FileFault Text) : (m.reload file).InStep := by
  unfold reload
  split
  · split
    · exact inStep_takeSource h _
    · exact h
  · exact h

theorem inStep_scrollUp (h : m.InStep) : m.scrollUp.InStep := by
  unfold scrollUp
  split <;> exact h

theorem inStep_scrollDown (h : m.InStep) : m.scrollDown.InStep := by
  unfold scrollDown
  split <;> exact h

theorem inStep_press (h : m.InStep) (now : Nat) (file : Except FileFault Text) (k : Key) :
    (m.press now file k).InStep := by
  unfold press
  split
  · exact h
  · exact h
  · exact inStep_toggleRun h now
  · exact inStep_togglePause h now
  · exact inStep_forward h now
  · exact inStep_forward h now
  · exact inStep_backward h
  · exact inStep_start (inStep_stop h) now
  · exact inStep_reload h file
  · exact h
  · exact h
  · exact h
  · exact inStep_scrollUp h
  · exact inStep_scrollDown h
  · exact h
  · exact h

theorem inStep_poll (h : m.InStep) (now : Nat) : (m.poll now).InStep := by
  rw [poll_eq]
  exact Matches.apply h (e := .poll now) (by simp)

theorem inStep_apply (h : m.InStep) (e : Event) : (m.apply e).InStep := by
  cases e with
  | key k now file => exact inStep_press h now file k
  | poll now => exact inStep_poll h now

theorem inStep_run (h : m.InStep) (events : List Event) : (m.run events).InStep := by
  induction events generalizing m with
  | nil => exact h
  | cons e events ih => exact ih (inStep_apply h e)

/-- A monitor that is made for an idle session with its sketch loaded and a stopped clock, after any keys and polls at
any times, whatever each reading of the file gives or fails with: the text that is shown reads as the program of the
session, a text waits if and only if a program waits in the session, which is then the one that this text reads as, and
the clock is stopped if and only if the session is idle. -/
theorem source_matches_program (parts : Registry) (limit : Nat) (past : List Session.Event) (m : Monitor)
    (made : m.bench.session = (Session.new parts limit).run past) (idle : m.bench.session.isStarted = false)
    (loaded : m.bench.session.program = .ofSource m.source) (stopped : m.bench.clock.isStopped = true)
    (nothingWaits : m.pending = none) (events : List Event) :
    let m' := m.run events
    let session := m'.bench.session
    Program.ofSource m'.source = session.program ∧
      (m'.pending.isSome = true ↔ session.pending.isSome = true) ∧
      (∀ text, m'.pending = some text → session.pending = some (.ofSource text)) ∧
      (m'.bench.clock.isStopped = true ↔ session.progress.phase = .idle) := by
  intro m' session
  have start : m.InStep := by
    refine ⟨loaded, ?_, by rw [Bench.Paired, stopped, idle]; rfl⟩
    rw [made] at idle ⊢
    rw [(Session.fresh_of_idle idle).pending, nothingWaits]
    rfl
  have h : m'.InStep := inStep_run start events
  have waiting : session.pending = m'.pending.map .ofSource := h.pending
  refine ⟨h.program.symm, by rw [waiting, Option.isSome_map], fun text ht => by rw [waiting, ht]; rfl, ?_⟩
  have paired : m'.bench.clock.isStopped = !session.isStarted := h.paired
  simp [paired, Session.isStarted]

/-- A sketch that runs is edited twice, and reading it fails once in between: the second edit waits, and after a
restart it is shown and runs. -/
theorem source_matches_program_blink :
    let high := "void loop() \x7b\ndigitalWrite(13, HIGH);\n\x7d\n".toList
    let wait := "void loop() \x7b\n\ndelay(5);\n\x7d\n".toList
    let m : Monitor := { bench := { session := (Session.new {} 1000).run [.load high] }, source := high, hasFile := true }
    let edited : List Event :=
      [.key (.char ' ') 0 (.error .missing), .poll 60, .key (.char 'l') 70 (.ok []),
        .key (.char 'l') 80 (.error .missing), .key (.char 'l') 90 (.ok wait), .key .right 100 (.error .missing)]
    let restarted : List Event := edited ++ [.key (.char 'r') 110 (.error .missing), .poll 200]
    m.bench.session.isStarted = false ∧ m.bench.session.program = .ofSource m.source ∧
      m.bench.clock.isStopped = true ∧ m.pending = none ∧
      (m.run edited).pending = some wait ∧ (m.run edited).bench.session.pending = some (.ofSource wait) ∧
      (m.run edited).source = high ∧ (m.run edited).bench.session.program = .ofSource high ∧
      (m.run restarted).source = wait ∧ (m.run restarted).bench.session.program = .ofSource wait ∧
      (m.run restarted).bench.session.line = some 3 := by
  intro high wait m edited restarted
  have idle : m.bench.session.isStarted = false := by decide +kernel
  have matched := source_matches_program {} 1000 [.load high] m rfl idle rfl rfl rfl
  obtain ⟨shown, -, waiting, -⟩ := matched edited
  obtain ⟨shown', -, -, -⟩ := matched restarted
  have waits : (m.run edited).pending = some wait := by decide +kernel
  have before : (m.run edited).source = high := by decide +kernel
  have after : (m.run restarted).source = wait := by decide +kernel
  rw [before] at shown
  rw [after] at shown'
  exact ⟨idle, rfl, rfl, rfl, waits, waiting wait waits, before, shown.symm, after, shown'.symm, by decide +kernel⟩

end Monitor

end Breadboard
