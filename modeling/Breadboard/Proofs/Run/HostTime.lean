/-
  Breadboard.Proofs.Run.HostTime — a run does not depend on how its ticks come about.

  A tick fires because a poll finds it due, because it is asked for by hand, or as one of many
  at once, and the clock may be paused and resumed in between. `Bench.firedIn` counts the ticks
  that a list of events fires. `Driven` says that after `k` of them the clock and the session
  stand where `k` ticks in a row leave them.

  Proved: `driven_apply`, the invariant over one event, and from it that every started run is
  that of so many ticks fired at once, whatever the host's times are (`run_eq_runTicks`).
-/

import Mathlib
import Breadboard.Proofs.Run.Timeline

namespace Breadboard.Bench

/-- The events that start a stopped clock. -/
def Event.begins : Event → Bool
  | .start _ | .runTicks _ => true
  | _ => false

/-- The ticks that a list of events fires. -/
def firedIn (b : Bench) : List Event → Nat
  | [] => 0
  | e :: es => b.fired e + (b.apply e).firedIn es

theorem timeAfter_add (period time m n : Nat) :
    timeAfter period time (m + n) = timeAfter period (timeAfter period time m) n := by
  induction m generalizing time with
  | zero => rw [Nat.zero_add]; rfl
  | succ m ih => rw [Nat.add_right_comm, timeAfter, timeAfter, ih]

/-! ## A clock that is not stopped -/

section

variable {b : Bench} (running : b.clock.isStopped = false) {e : Event} (noStop : e ≠ .stop)

include running noStop

/-- To the session an event is the ticks that it fires. -/
theorem calls_of_running : b.calls e = tickEvents b.clock.period b.clock.time (b.fired e) := by
  cases e with
  | start now => simp only [calls, running]; rfl
  | stop => exact absurd rfl noStop
  | pause => rfl
  | resume now => rfl
  | poll now => rfl
  | step => rfl
  | runTicks n => simp only [calls, running]; rfl

theorem session_of_running :
    (b.apply e).session = b.session.run (tickEvents b.clock.period b.clock.time (b.fired e)) := by
  rw [session_apply, calls_of_running running noStop]

/-- Of the clock's readings only the simulated time moves, by a period for each tick. -/
theorem clock_of_running :
    (b.apply e).clock.isStopped = false ∧ (b.apply e).clock.period = b.clock.period ∧
      (b.apply e).clock.time = timeAfter b.clock.period b.clock.time (b.fired e) := by
  cases e with
  | start now =>
    have hb : b.apply (.start now) = b := by simp [apply, start, running]
    rw [hb]
    exact ⟨running, rfl, rfl⟩
  | stop => exact absurd rfl noStop
  | pause =>
    simp only [apply, pause, Clock.pause]
    split
    · exact ⟨rfl, rfl, rfl⟩
    · exact ⟨running, rfl, rfl⟩
  | resume now =>
    simp only [apply, resume, Clock.resume]
    split
    · exact ⟨rfl, rfl, rfl⟩
    · exact ⟨running, rfl, rfl⟩
  | poll now =>
    simp only [apply, fired]
    rcases b.poll_cases now with ⟨due, -, -, h⟩ | h
    · rw [h]
      exact ⟨rfl, rfl, rfl⟩
    · rw [h]
      exact ⟨running, rfl, rfl⟩
  | step =>
    simp only [apply, fired]
    rcases b.step_cases with ⟨-, h⟩ | h
    · rw [h]
      exact ⟨running, rfl, rfl⟩
    · rw [h]
      exact ⟨running, rfl, rfl⟩
  | runTicks n =>
    have hc : (b.apply (.runTicks n)).clock = (b.fires n).clock := by
      simp only [apply, runTicks, running, Bool.false_eq_true, if_false]
    rw [hc, clock_fires]
    exact ⟨running, rfl, rfl⟩

end

/-! ## A stopped clock -/

section

variable {b : Bench} (stopped : b.clock.isStopped = true) {e : Event}

include stopped

theorem drive_of_stopped : b.clock.drive = .stopped := by simpa [Clock.isStopped] using stopped

/-- Before the start nothing happens. -/
theorem apply_of_stopped (noStop : e ≠ .stop) (h : e.begins = false) : b.apply e = b ∧ b.fired e = 0 := by
  have hd := drive_of_stopped stopped
  cases e with
  | start now => cases h
  | stop => exact absurd rfl noStop
  | pause => simp [apply, pause, Clock.pause, Clock.isRunning, fired, hd]
  | resume now => simp [apply, resume, Clock.resume, Clock.isPaused, fired, hd]
  | poll now =>
    have nothing : b.poll now = (b, false) := poll_of_not_isRunning (by simp [Clock.isRunning, hd]) now
    simp [apply, fired, nothing]
  | step =>
    rcases b.step_cases with ⟨paused, -⟩ | nothing
    · simp [Clock.isPaused, hd] at paused
    · simp [apply, fired, nothing]
  | runTicks n => cases h

end

/-! ## Ticks from the start on -/

/-- The bench after so many ticks of a run that began with this session. -/
structure Driven (period : Nat) (begun : Session) (k : Nat) (b : Bench) : Prop where
  running : b.clock.isStopped = false
  pace : b.clock.period = period
  time : b.clock.time = timeAfter period 0 k
  session : b.session = begun.run (tickEvents period 0 k)

variable {period k : Nat} {begun : Session} {b : Bench}

theorem driven_begin (stopped : b.clock.isStopped = true) {e : Event} (h : e.begins = true) :
    Driven b.clock.period b.session.start (b.fired e) (b.apply e) := by
  cases e with
  | start now =>
    simp only [apply, start, stopped, if_true]
    exact ⟨rfl, rfl, rfl, rfl⟩
  | runTicks n =>
    simp only [apply, runTicks, stopped, if_true, fired]
    refine ⟨?_, ?_, ?_, session_fires _ n⟩
    · rw [clock_fires]; rfl
    · rw [clock_fires]
    · rw [clock_fires]
  | stop => cases h
  | pause => cases h
  | resume now => cases h
  | poll now => cases h
  | step => cases h

/-- An event adds the ticks that it fires. -/
theorem driven_apply (h : Driven period begun k b) {e : Event} (noStop : e ≠ .stop) :
    Driven period begun (k + b.fired e) (b.apply e) := by
  obtain ⟨hr, hp, ht⟩ := clock_of_running h.running noStop
  refine ⟨hr, hp.trans h.pace, ?_, ?_⟩
  · rw [ht, h.pace, h.time, timeAfter_add]
  · rw [session_of_running h.running noStop, h.pace, h.time, h.session, tickEvents_add, Session.run_append]

theorem driven_run (h : Driven period begun k b) {es : List Event} (noStop : ∀ e ∈ es, e ≠ .stop) :
    Driven period begun (k + b.firedIn es) (b.run es) := by
  induction es generalizing k b with
  | nil => exact h
  | cons e es ih =>
    rw [List.forall_mem_cons] at noStop
    rw [firedIn, ← Nat.add_assoc]
    exact ih (driven_apply h noStop.1) noStop.2

/-- From a stopped clock on, a list of events with a start in it makes a run of the ticks that it fires. -/
theorem driven_of_begins (stopped : b.clock.isStopped = true) {es : List Event} (noStop : ∀ e ∈ es, e ≠ .stop)
    (begins : ∃ e ∈ es, e.begins = true) :
    Driven b.clock.period b.session.start (b.firedIn es) (b.run es) := by
  induction es with
  | nil =>
    obtain ⟨e, he, -⟩ := begins
    cases he
  | cons e es ih =>
    rw [List.forall_mem_cons] at noStop
    by_cases he : e.begins = true
    · exact driven_run (driven_begin stopped he) noStop.2
    · obtain ⟨hb, hf⟩ := apply_of_stopped stopped noStop.1 (by simpa using he)
      have hes : ∃ e ∈ es, e.begins = true := by
        obtain ⟨e', he', hbe⟩ := begins
        rcases List.mem_cons.1 he' with rfl | he'
        · exact absurd hbe he
        · exact ⟨e', he', hbe⟩
      have hrun : b.run (e :: es) = b.run es := by
        show (b.apply e).run es = b.run es
        rw [hb]
      rw [hrun, firedIn, hb, hf, Nat.zero_add]
      exact ih noStop.2 hes

/-- A stopped clock that is started, paused, resumed, polled and stepped at any times of the host: simulated
time is one period for each tick that fired, the session is that of a run of as many ticks fired at once on
a new clock, and what fires no tick changes nothing once the run has begun. -/
theorem run_eq_runTicks (clock : Clock) (session : Session) (events : List Event)
    (stopped : clock.isStopped = true) (positive : 1 ≤ clock.period) (noStop : ∀ e ∈ events, e ≠ .stop)
    (begins : ∃ e ∈ events, e.begins = true) :
    let b : Bench := { clock, session }
    let k := b.firedIn events
    (k * clock.period < 2 ^ 64 → (b.run events).clock.time = k * clock.period) ∧
      (b.run events).session =
        (({ clock := .new clock.period, session } : Bench).runTicks k).session ∧
      ∀ es e rest, events = es ++ e :: rest → (b.run es).clock.isStopped = false → (b.run es).fired e = 0 →
        (b.run (es ++ [e])).session = (b.run es).session := by
  intro b k
  have h : Driven clock.period session.start k (b.run events) := driven_of_begins (b := b) stopped noStop begins
  refine ⟨fun inTime => ?_, ?_, ?_⟩
  · rw [h.time, timeAfter_eq]
    · exact Nat.zero_add _
    · have hmax : Text.maxWord64 = 2 ^ 64 - 1 := rfl
      omega
  · have hnew : (Clock.new clock.period).period = clock.period := Nat.max_eq_left positive
    have once := driven_begin (b := { clock := .new clock.period, session }) rfl (e := .runTicks k) rfl
    rw [h.session]
    have hs := once.session
    rw [hnew] at hs
    exact hs.symm
  · intro es e rest hsplit running hf
    have he : e ≠ .stop := noStop e (by simp [hsplit])
    have hrun : b.run (es ++ [e]) = (b.run es).apply e := by
      rw [run, List.foldl_append]
      rfl
    rw [hrun, session_of_running running he, hf]
    rfl

/-- A host that polls too early, then too late, pauses, steps, resumes and asks for two ticks more: five ticks. -/
theorem run_eq_runTicks_blink :
    let p : Program :=
      { loop := [⟨.write (.number 13) .high, "digitalWrite(13, HIGH);".toList, 2⟩,
          ⟨.delay 120, "delay(120);".toList, 3⟩] }
    let clock : Clock := { period := 50 }
    let session := (Session.new {} 4000).loadProgram p
    let events : List Event :=
      [.poll 900, .start 1000, .poll 1049, .poll 1200, .pause, .poll 1300, .step, .resume 5000, .poll 5050, .runTicks 2]
    let b : Bench := { clock, session }
    clock.isStopped = true ∧ 1 ≤ clock.period ∧ (∀ e ∈ events, e ≠ .stop) ∧ (∃ e ∈ events, e.begins = true) ∧
      5 * clock.period < 2 ^ 64 ∧ (b.run events).clock.time = 250 ∧
      (b.run events).session = (({ clock := .new 50, session } : Bench).runTicks 5).session ∧
      (b.run events).session.steps = 3 := by
  intro p clock session events b
  have noStop : ∀ e ∈ events, e ≠ .stop := by decide
  have begins : ∃ e ∈ events, e.begins = true := ⟨.start 1000, by simp [events], rfl⟩
  have five : b.firedIn events = 5 := by decide
  have inTime : 5 * clock.period < 2 ^ 64 := by decide
  obtain ⟨time, once, -⟩ := run_eq_runTicks clock session events rfl (by decide) noStop begins
  rw [five] at time once
  refine ⟨rfl, by decide, noStop, begins, inTime, time inTime, once, by decide⟩

end Breadboard.Bench
