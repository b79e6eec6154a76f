/-
  Breadboard.Proofs.Run.Gate — a delay keeps its run waiting until the wake time.

  The tick that runs a delay closes a gate. `Asleep` says that a run waits behind such a gate.
  Nothing short of a stop opens it before a tick at or past the wake time has come, whatever
  else happens and in whichever order the times of the ticks are (`Asleep.run`).

  Proved: a tick before the wake time does nothing but note its time (`Asleep.tick_of_lt`), the
  first one at or past it takes the gate away and runs what stands next
  (`Asleep.tick_of_next`, `Asleep.tick_of_end`), and both of every delay in every run
  (`delay_holds_ticks`).
-/

import Breadboard.Proofs.Run.Trace

namespace Breadboard

theorem Progress.advance_isRunning {s : Progress} (h : s.phase.isRunning = true) (p : Program) :
    (s.advance p).phase.isRunning = true := by
  unfold advance
  split
  · split
    · exact h
    · split
      · rfl
      · exact h
  · split
    · exact h
    · split <;> exact h
  · exact h
  · exact h

namespace Session

variable {s : Session}

/-- What a tick runs is the statement that stood next. -/
theorem tick_of_executed? {now : Nat} {n : Node} (h : s.executed? (.tick now) = some ⟨now, n⟩) :
    s.next? = some n ∧ s.tick now = ((s.ungated now).execute now n).record := by
  rcases executed?_cases s now with ⟨hx, -⟩ | ⟨m, hx, hm, e⟩
  · rw [hx] at h; cases h
  · rw [hx] at h; cases h
    exact ⟨hm, e⟩

/-! ## Behind the gate -/

/-- A run that waits for a time. -/
structure Asleep (wake : Nat) (s : Session) : Prop where
  running : s.progress.phase.isRunning = true
  wakeAt : s.progress.wakeAt = some wake

theorem asleep_of_delay {now d : Nat} {n : Node} (ran : s.executed? (.tick now) = some ⟨now, n⟩)
    (delay : n.statement = .delay d) : Asleep (wakeTime now d) (s.tick now) := by
  obtain ⟨hn, ht⟩ := tick_of_executed? ran
  have hr : s.progress.phase.isRunning = true := Progress.isRunning_of_current? hn
  rw [ht]
  constructor
  · rw [record_progress]
    apply Progress.advance_isRunning
    split <;> simpa [ungated, Progress.sleepUntil] using hr
  · rw [record_progress, execute_wakeAt, delay]
    rfl

namespace Asleep

variable {wake : Nat}

theorem isStarted (h : Asleep wake s) : s.isStarted = true := by
  rw [isStarted_iff]
  intro idle
  have := h.running
  rw [idle] at this
  cases this

theorem isGated (h : Asleep wake s) (now : Nat) : s.progress.isGated now = decide (now < wake) := by
  simp [Progress.isGated, h.wakeAt]

theorem tick_of_lt (h : Asleep wake s) {now : Nat} (early : now < wake) : s.tick now = { s with time := now } := by
  have hg : s.progress.isGated now = true := by rw [h.isGated]; exact decide_eq_true early
  simp [tick, h.running, hg]

/-- Ticks that come too early leave the run asleep, and so does everything else but a stop. -/
theorem apply (h : Asleep wake s) {e : Event} (noStop : e ≠ .stop)
    (early : ∀ now, e = .tick now → now < wake) : Asleep wake (s.apply e) := by
  cases e with
  | load source =>
    rw [Session.apply, load_of_isStarted h.isStarted]
    exact ⟨h.running, h.wakeAt⟩
  | start => rw [Session.apply, start_of_isStarted h.isStarted]; exact h
  | stop => exact absurd rfl noStop
  | tick now =>
    rw [Session.apply, h.tick_of_lt (early now rfl)]
    exact ⟨h.running, h.wakeAt⟩
  | attach p => exact ⟨h.running, h.wakeAt⟩
  | detach id => exact ⟨h.running, h.wakeAt⟩

theorem run (h : Asleep wake s) {es : List Event} (noStop : ∀ e ∈ es, e ≠ .stop)
    (early : ∀ now, .tick now ∈ es → now < wake) : Asleep wake (s.run es) :=
  run_induction (motive := Asleep wake) h fun _ e he ht =>
    ht.apply (noStop e he) fun now hnow => early now (hnow ▸ he)

/-! ## The tick that wakes -/

theorem isGated_of_le (h : Asleep wake s) {now : Nat} (due : wake ≤ now) : s.progress.isGated now = false := by
  rw [h.isGated]
  exact decide_eq_false (by omega)

/-- Of the gate that was closed nothing is left: if there is one now, the statement that ran closed it. -/
theorem tick_of_next (h : Asleep wake s) {now : Nat} (due : wake ≤ now) {n : Node} (hn : s.next? = some n) :
    s.executed? (.tick now) = some ⟨now, n⟩ ∧ (s.tick now).steps = s.steps + 1 ∧
      (s.tick now).progress.wakeAt = n.statement.pause?.map (wakeTime now) := by
  have hg := h.isGated_of_le due
  have ht : s.tick now = ((s.ungated now).execute now n).record := by
    rw [tick_of_open h.running hg, hn]
  refine ⟨executed?_of_open hn ht, by rw [ht]; simp [execute, ungated], ?_⟩
  rw [ht, record_progress]
  exact ungated_execute_wakeAt hg n

theorem tick_of_end (h : Asleep wake s) {now : Nat} (due : wake ≤ now) (hn : s.next? = none) :
    s.executed? (.tick now) = none ∧
      s.tick now = { s with time := now, progress := { s.progress with wakeAt := none } } := by
  have hg := h.isGated_of_le due
  have ht : s.tick now = s.ungated now := by rw [tick_of_open h.running hg, hn]
  refine ⟨executed?_of_steps_eq s now (by rw [ht]; rfl), ?_⟩
  rw [ht]
  simp [ungated, Progress.passGate, hg]

end Asleep

/-- A run comes to its end only behind a setup that no loop follows. -/
theorem Follows.next?_eq_none_iff {p : Program} {done : List Execution} (h : Follows p s done) :
    s.next? = none ↔ s.program.loop = [] ∧ s.program.setup.length ≤ s.steps := by
  rw [h.next?, p.nth?_eq_none_iff, h.program, h.steps, and_comm]

/-- A tick at `t` has run a delay of `d`. Whatever comes then short of a stop, and in whichever order the times come:
until the first tick at or past the wake time, each tick runs nothing and changes only the time noted; that first
tick finds the gate still there, takes it away and runs the one statement that stands next. There is one unless the
loop is empty and the setup is through, and then only the gate goes. -/
theorem delay_holds_ticks (peripherals : Registry) (limit : Nat) (before later : List Event) (t d : Nat) (n : Node)
    (ran : ((new peripherals limit).run before).executed? (.tick t) = some ⟨t, n⟩) (delay : n.statement = .delay d)
    (noStop : ∀ e ∈ later, e ≠ .stop) :
    let s := ((new peripherals limit).run before).tick t
    let wake := min (t + d) (2 ^ 64 - 1)
    ∀ es now rest, later = es ++ .tick now :: rest → (∀ earlier, .tick earlier ∈ es → earlier < wake) →
      let u := s.run es
      (now < wake → u.executed? (.tick now) = none ∧ u.tick now = { u with time := now }) ∧
      (wake ≤ now →
        u.progress.wakeAt = some wake ∧
        (∀ m, u.next? = some m → u.executed? (.tick now) = some ⟨now, m⟩ ∧ (u.tick now).steps = u.steps + 1 ∧
          (u.tick now).progress.wakeAt = m.statement.pause?.map (wakeTime now)) ∧
        (u.next? = none ↔ u.program.loop = [] ∧ u.program.setup.length ≤ u.steps) ∧
        (u.next? = none → u.executed? (.tick now) = none ∧
          u.tick now = { u with time := now, progress := { u.progress with wakeAt := none } })) := by
  intro s wake es now rest hsplit early u
  have noStop : ∀ e ∈ es, e ≠ .stop := fun e he => noStop e (by simp [hsplit, he])
  have asleep : Asleep wake u := (asleep_of_delay ran delay).run noStop early
  constructor
  · intro hlt
    have ht := asleep.tick_of_lt hlt
    exact ⟨executed?_of_steps_eq u now (by rw [ht]), ht⟩
  · intro hle
    have hu : u = (new peripherals limit).run (before ++ .tick t :: es) := by
      rw [run_append]
      rfl
    obtain ⟨p, done, follows⟩ : ∃ p done, Follows p u done := by
      rw [hu]
      exact exists_follows (hu ▸ asleep.isStarted)
    exact ⟨asleep.wakeAt, fun m hm => asleep.tick_of_next hle hm, follows.next?_eq_none_iff,
      asleep.tick_of_end hle⟩

/-- A delay at the end of the setup, so near the end of time that the wake time is its last millisecond: neither a
tick just before it nor one long ago runs the loop, the tick on it does. -/
theorem delay_holds_ticks_blink :
    let source := "void setup() \x7b\ndelay(100);\n\x7d\nvoid loop() \x7b\ndigitalWrite(13, HIGH);\n\x7d\n".toList
    let before : List Event := [.load source, .start]
    let late := 2 ^ 64 - 50
    let n : Node := ⟨.delay 100, "delay(100);".toList, 2⟩
    let early : List Event := [.tick (2 ^ 64 - 2), .load []]
    let later := early ++ [Event.tick 3] ++ [Event.tick (2 ^ 64 - 1)]
    let s := ((new {} 1000).run before).tick late
    let u := s.run early
    ((new {} 1000).run before).executed? (.tick late) = some ⟨late, n⟩ ∧ n.statement = .delay 100 ∧
      (∀ e ∈ later, e ≠ .stop) ∧ u.tick 3 = { u with time := 3 } ∧
      (s.run (early ++ [Event.tick 3])).steps = 1 ∧ (s.run later).steps = 2 := by
  intro source before late n early later s u
  have ran : ((new {} 1000).run before).executed? (.tick late) = some ⟨late, n⟩ := by decide +kernel
  have noStop : ∀ e ∈ later, e ≠ .stop := by decide
  have holds := delay_holds_ticks {} 1000 before later late 100 n ran rfl noStop
  obtain ⟨asleep, -⟩ := holds early 3 [.tick (2 ^ 64 - 1)] rfl (by simp [early, late])
  obtain ⟨-, awake⟩ := holds (early ++ [Event.tick 3]) (2 ^ 64 - 1) [] rfl (by simp [early, late])
  have between : (s.run (early ++ [Event.tick 3])).steps = 1 ∧ (s.run (early ++ [Event.tick 3])).next? =
      some ⟨.write (.number 13) .high, "digitalWrite(13, HIGH);".toList, 5⟩ := by decide +kernel
  obtain ⟨one, next⟩ := between
  obtain ⟨-, wakes, -⟩ := awake (by decide)
  obtain ⟨-, two, -⟩ := wakes _ next
  rw [one] at two
  have last : s.run later = (s.run (early ++ [Event.tick 3])).tick (2 ^ 64 - 1) := run_concat s _ _
  exact ⟨ran, rfl, noStop, (asleep (by decide)).2, one, by rw [last]; exact two⟩

end Session

end Breadboard
