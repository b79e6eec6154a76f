/-
  Breadboard.Proofs.Run.Onlooker — what looks on has no part in a run.

  The parts show what the pins read, and the history records what each step left: a run writes to
  both and reads neither. `Session.bare` is the session without them. A call that drives the
  session does to the bare session what it does to the whole one (`bare_apply`), and attaching or
  detaching a part does nothing to it (`bare_observe`), so a run is, apart from what looks on, the
  run of its driving calls on the bare session (`bare_run`).

  Proved: two sessions with any parts and any limits that are driven by the same calls agree after
  each of these calls, whatever is attached and detached in either of them (`run_ignores_onlookers`).
-/

import Breadboard.Proofs.Run.Session

namespace Breadboard.Session

/-- Whether a call drives the session; the others have to do with its parts alone. -/
def Event.drives : Event → Bool
  | .attach _ | .detach _ => false
  | _ => true

def driving (es : List Event) : List Event := es.filter Event.drives

/-- The session without its parts, and with no room for a history. -/
def bare (s : Session) : Session :=
  { s with board := { s.board with peripherals := {} }, history := { limit := 0 } }

/-! ## One call -/

variable {s : Session} {e : Event}

theorem bare_execute (s : Session) (now : Nat) (n : Node) : (s.execute now n).bare = s.bare.execute now n := by
  rcases n with ⟨statement, text, line⟩
  cases statement <;> rfl

/-- Whether the history takes the step or refuses it, nothing of that is left. -/
theorem bare_record (s : Session) : s.record.bare = s.bare.record := by
  have hbare : s.bare.record = s.bare := rfl
  rw [hbare]
  unfold record
  split <;> rfl

theorem bare_tick (s : Session) (now : Nat) : (s.tick now).bare = s.bare.tick now :=
  (tick_comm (f := bare) (fun _ => rfl) (fun _ => rfl) (fun _ _ => rfl) (fun _ _ => rfl)
    (fun s now n => by rw [bare_record, bare_execute]) s now).symm

theorem bare_apply (drives : e.drives = true) : (s.apply e).bare = s.bare.apply e := by
  cases e with
  | load source =>
    cases hs : s.isStarted with
    | true =>
      rw [apply, apply, load_of_isStarted hs, load_of_isStarted (s := s.bare) hs]
      rfl
    | false =>
      rw [apply, apply, load_of_idle hs, load_of_idle (s := s.bare) hs]
      rfl
  | start =>
    cases hs : s.isStarted with
    | true => rw [apply, apply, start_of_isStarted hs, start_of_isStarted (s := s.bare) hs]
    | false =>
      rw [apply, apply, start_of_idle hs, start_of_idle (s := s.bare) hs]
      rfl
  | stop => rfl
  | tick now => exact bare_tick s now
  | attach p => cases drives
  | detach id => cases drives

theorem bare_observe (observes : e.drives = false) : (s.apply e).bare = s.bare := by
  cases e with
  | attach p => rfl
  | detach id => rfl
  | load source => cases observes
  | start => cases observes
  | stop => cases observes
  | tick now => cases observes

/-! ## Runs -/

theorem bare_run (s : Session) (es : List Event) : (s.run es).bare = s.bare.run (driving es) := by
  induction es generalizing s with
  | nil => rfl
  | cons e es ih =>
    show ((s.apply e).run es).bare = _
    rw [ih]
    cases he : e.drives with
    | true =>
      rw [bare_apply he, driving, driving, List.filter_cons_of_pos he]
      rfl
    | false => rw [bare_observe he, driving, driving, List.filter_cons_of_neg (by simp [he])]

/-- With as many driving calls made, two runs of the same driving calls have made the same ones. -/
theorem driving_eq_of_length {events events' es es' : List Event} (same : driving events = driving events')
    (before : es <+: events) (before' : es' <+: events') (calls : (driving es).length = (driving es').length) :
    driving es = driving es' := by
  have h : driving es <+: driving events := before.filter _
  have h' : driving es' <+: driving events' := before'.filter _
  rw [← same] at h'
  exact (List.prefix_of_prefix_length_le h h' calls.le).eq_of_length calls

/-- Two sessions, made with whatever parts and with whatever room for their histories, that are given the same loads,
starts, stops and ticks agree whenever they have been given as many of them, wherever in either of the two runs parts
are attached and detached. They agree on the program, the one that waits, the progress, the pins, the serial log, the
line that ran last, the number of steps and the time of the last tick. -/
theorem run_ignores_onlookers (parts parts' : Registry) (limit limit' : Nat) (events events' : List Event)
    (same : driving events = driving events') :
    ∀ es es', es <+: events → es' <+: events' → (driving es).length = (driving es').length →
      let s := (new parts limit).run es
      let s' := (new parts' limit').run es'
      s.program = s'.program ∧ s.pending = s'.pending ∧ s.progress = s'.progress ∧ s.board.pins = s'.board.pins ∧
        s.board.serial = s'.board.serial ∧ s.line = s'.line ∧ s.steps = s'.steps ∧ s.time = s'.time := by
  intro es es' before before' calls s s'
  have hbare : s.bare = s'.bare :=
    calc s.bare = (new {} 0).run (driving es) := bare_run (new parts limit) es
      _ = (new {} 0).run (driving es') := by rw [driving_eq_of_length same before before' calls]
      _ = s'.bare := (bare_run (new parts' limit') es').symm
  exact ⟨congrArg (·.program) hbare, congrArg (·.pending) hbare, congrArg (·.progress) hbare,
    congrArg (·.board.pins) hbare, congrArg (·.board.serial) hbare, congrArg (·.line) hbare,
    congrArg (·.steps) hbare, congrArg (·.time) hbare⟩

/-- One run with an LED that is taken away and no room for a history, and one with a buzzer that comes later and with
room for one: other parts, another history, the same run. -/
theorem run_ignores_onlookers_blink :
    let source := "void loop() \x7b\ndigitalWrite(13, HIGH);\nSerial.println(\"on\");\n\x7d\n".toList
    let led : Peripheral := { id := "led".toList, kind := .redLed, pin := .number 13 }
    let buzzer : Peripheral := { id := "buzzer".toList, kind := .buzzer, pin := .number 13 }
    let events : List Event := [.load source, .start, .tick 50, .detach led.id, .tick 100]
    let events' : List Event := [.load source, .start, .tick 50, .tick 100, .attach buzzer]
    let s := (new (.ofList [led]) 0).run events
    let s' := (new {} 1000).run events'
    driving events = driving events' ∧ s.board.pins = s'.board.pins ∧ s.board.serial = s'.board.serial ∧
      s.line = s'.line ∧ s'.line = some 3 ∧ s.history.size = 0 ∧ s'.history.size = 2 ∧
      s.board.peripherals.size = 0 ∧ s'.board.peripherals.size = 1 := by
  intro source led buzzer events events' s s'
  have same : driving events = driving events' := rfl
  obtain ⟨-, -, -, pins, serial, line, -, -⟩ := run_ignores_onlookers (.ofList [led]) {} 0 1000 events events' same
    events events' (List.prefix_refl _) (List.prefix_refl _) rfl
  exact ⟨same, pins, serial, line, by decide +kernel, by decide +kernel, by decide +kernel, by decide +kernel,
    by decide +kernel⟩

end Breadboard.Session
