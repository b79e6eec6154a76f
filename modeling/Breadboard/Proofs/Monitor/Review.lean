/-
  Breadboard.Proofs.Monitor.Review — looking back at a run shows what was recorded and changes nothing.

  While it reviews, a monitor keeps how many steps behind the newest the shown one is. Two keys
  move that number, ticks and stops the history, and keys and polls the clock, each by rules of
  its own. `Anchored` ties the three together: the step under review is a recorded one, and the
  clock is paused. `depth` counts the steps back from the live state, which is at depth zero.

  Proved: every key and every poll keeps a review anchored (`anchored_apply`). On a paused run the
  left key goes a step deeper as long as there is one, the right key comes a step back, and
  neither touches clock or session (`backward_of_isPaused`, `forward_of_depth_pos`). So a review
  shows the recorded step and never the live state in its place, and as many steps forth as there
  were steps back lead to the live state as it was (`review_recorded_and_read_only`).
-/

import Mathlib
import Breadboard.Monitor.Display
import Breadboard.Proofs.Run.Review

namespace Breadboard

/-! ## A paused clock -/

namespace Bench

variable {b : Bench}

theorem isPaused_iff : b.clock.isPaused = true ↔ b.clock.drive = .paused := by simp [Clock.isPaused]

theorem not_isStopped_of_isPaused (paused : b.clock.isPaused = true) : b.clock.isStopped = false := by
  simp [Clock.isStopped, isPaused_iff.1 paused]

theorem not_isRunning_of_isPaused (paused : b.clock.isPaused = true) : b.clock.isRunning = false := by
  simp [Clock.isRunning, isPaused_iff.1 paused]

theorem start_of_isPaused (paused : b.clock.isPaused = true) (now : Nat) : b.start now = b := by
  simp [start, not_isStopped_of_isPaused paused]

theorem pause_of_isPaused (paused : b.clock.isPaused = true) : b.pause = b := by
  simp [pause, Clock.pause, not_isRunning_of_isPaused paused]

/-- Pausing pauses whatever is not stopped. -/
theorem isPaused_pause (h : b.clock.isStopped = false) : b.pause.clock.isPaused = true := by
  rw [isPaused_iff]
  rcases hd : b.clock.drive with _ | due | _
  · simp [Clock.isStopped, hd] at h
  · simp [pause, Clock.pause, Clock.isRunning, hd]
  · simp [pause, Clock.pause, Clock.isRunning, hd]

end Bench

theorem Session.history_load (s : Session) (source : Text) : (s.load source).history = s.history := by
  unfold load loadProgram
  split <;> rfl

namespace Monitor

/-! ## Steps under review -/

/-- A step under review is a recorded one, and the clock is paused. -/
def Anchored (bench : Bench) (review : Option Nat) : Prop :=
  ∀ back, review = some back → bench.clock.isPaused = true ∧ back < bench.session.history.size

/-- How many steps back from the live state the shown one is. -/
def depth (m : Monitor) : Nat := m.review.elim 0 (· + 1)

namespace Anchored

variable {bench bench' : Bench} {review : Option Nat} {back : Nat}

theorem live (bench : Bench) : Anchored bench none := by
  intro back h
  cases h

theorem recorded (paused : bench.clock.isPaused = true) (h : back < bench.session.history.size) :
    Anchored bench (some back) := by
  intro b hb
  obtain rfl : back = b := Option.some.inj hb
  exact ⟨paused, h⟩

/-- What keeps a pause and the history keeps a review. -/
theorem keep (h : Anchored bench review)
    (paused : bench.clock.isPaused = true → bench'.clock.isPaused = true)
    (history : bench'.session.history = bench.session.history) : Anchored bench' review := by
  intro back hb
  rw [history]
  exact ⟨paused (h back hb).1, (h back hb).2⟩

end Anchored

variable {m : Monitor}

theorem depth_of_live (live : m.review = none) : m.depth = 0 := by rw [depth, live]; rfl

theorem live_of_depth (h : m.depth = 0) : m.review = none := by
  rcases hr : m.review with _ | back
  · rfl
  · simp [depth, hr] at h

/-- No review goes further back than the history. -/
theorem depth_le (h : Anchored m.bench m.review) : m.depth ≤ m.bench.session.history.size := by
  unfold depth
  rcases hr : m.review with _ | back
  · exact Nat.zero_le _
  · exact (h back hr).2

/-! ## The keys of a review -/

theorem backward_of_not_isStopped (h : m.bench.clock.isStopped = false) :
    m.backward.bench = m.bench.pause ∧
      m.backward.review = if m.depth < m.bench.session.history.size then some m.depth else m.review := by
  have key : m.backward =
      if m.depth < m.bench.session.history.size then
        { m with bench := m.bench.pause, review := some m.depth, notice := .reviewing m.depth }
      else { m with bench := m.bench.pause, notice := .startOfHistory } := by
    unfold backward depth
    rw [h]
    cases m.review <;> rfl
  rw [key]
  split <;> exact ⟨rfl, rfl⟩

/-- On a paused run the left key goes one step deeper, if there is one. -/
theorem backward_of_isPaused (paused : m.bench.clock.isPaused = true) (h : Anchored m.bench m.review) :
    m.backward.bench = m.bench ∧ m.backward.depth = min (m.depth + 1) m.bench.session.history.size := by
  obtain ⟨hbench, hreview⟩ := backward_of_not_isStopped (Bench.not_isStopped_of_isPaused paused)
  rw [Bench.pause_of_isPaused paused] at hbench
  refine ⟨hbench, ?_⟩
  have hle := depth_le h
  by_cases deeper : m.depth < m.bench.session.history.size
  · rw [if_pos deeper] at hreview
    have : m.backward.depth = m.depth + 1 := by rw [depth, hreview]; rfl
    omega
  · rw [if_neg deeper] at hreview
    have : m.backward.depth = m.depth := by rw [depth, hreview]; rfl
    omega

/-- While reviewing the right key comes one step back. -/
theorem forward_of_depth_pos (h : 0 < m.depth) (now : Nat) :
    (m.forward now).bench = m.bench ∧ (m.forward now).depth + 1 = m.depth := by
  unfold forward
  rcases hr : m.review with _ | _ | back
  · rw [depth_of_live hr] at h
    cases h
  · exact ⟨rfl, by simp [depth, hr]⟩
  · exact ⟨rfl, by simp [depth, hr]⟩

theorem review_stepLive (m : Monitor) (now : Nat) : (m.stepLive now).review = m.review := by
  rw [stepLive_eq m now rfl]

/-! ## All keys and polls -/

theorem anchored_start (h : Anchored m.bench m.review) (now : Nat) :
    Anchored (m.start now).bench (m.start now).review := by
  intro back hb
  have anchored := h back hb
  show (m.bench.start now).clock.isPaused = true ∧ back < (m.bench.start now).session.history.size
  rw [Bench.start_of_isPaused anchored.1]
  exact anchored

theorem anchored_toggleRun (h : Anchored m.bench m.review) (now : Nat) :
    Anchored (m.toggleRun now).bench (m.toggleRun now).review := by
  unfold toggleRun
  split
  · exact anchored_start h now
  · exact Anchored.live _

theorem anchored_togglePause (h : Anchored m.bench m.review) (now : Nat) :
    Anchored (m.togglePause now).bench (m.togglePause now).review := by
  unfold togglePause
  split
  · next running =>
    refine Anchored.keep h (fun paused => ?_) rfl
    rw [Bench.not_isRunning_of_isPaused paused] at running
    cases running
  · split
    · exact Anchored.live _
    · exact h

theorem anchored_forward (h : Anchored m.bench m.review) (now : Nat) :
    Anchored (m.forward now).bench (m.forward now).review := by
  unfold forward
  split
  · exact Anchored.live _
  · next back hr =>
    obtain ⟨paused, deeper⟩ := h (back + 1) hr
    exact Anchored.recorded paused (Nat.lt_of_succ_lt deeper)
  · next live =>
    rw [review_stepLive, live]
    exact Anchored.live _

theorem anchored_backward (h : Anchored m.bench m.review) : Anchored m.backward.bench m.backward.review := by
  cases stopped : m.bench.clock.isStopped with
  | true =>
    unfold backward
    rw [if_pos stopped]
    exact h
  | false =>
    obtain ⟨hbench, hreview⟩ := backward_of_not_isStopped stopped
    have paused : m.bench.pause.clock.isPaused = true := Bench.isPaused_pause stopped
    rw [hbench, hreview]
    split
    · next deeper => exact Anchored.recorded paused deeper
    · exact Anchored.keep h (fun _ => paused) rfl

theorem anchored_reload (h : Anchored m.bench m.review) (file : Except FileFault Text) :
    Anchored (m.reload file).bench (m.reload file).review := by
  have loaded : ∀ source, Anchored (m.takeSource source).bench (m.takeSource source).review := by
    intro source
    have kept : Anchored { m.bench with session := m.bench.session.load source } m.review :=
      h.keep id (Session.history_load _ source)
    unfold takeSource
    dsimp only
    split <;> exact kept
  unfold reload
  split
  · split
    · exact loaded _
    · exact h
  · exact h

theorem anchored_press (h : Anchored m.bench m.review) (now : Nat) (file : Except FileFault Text) (k : Key) :
    Anchored (m.press now file k).bench (m.press now file k).review := by
  have scrolled : m.scrollUp.bench = m.bench ∧ m.scrollUp.review = m.review ∧
      m.scrollDown.bench = m.bench ∧ m.scrollDown.review = m.review := by
    unfold scrollUp scrollDown
    cases m.focus <;> exact ⟨rfl, rfl, rfl, rfl⟩
  obtain ⟨upBench, upReview, downBench, downReview⟩ := scrolled
  unfold press
  split
  · exact h
  · exact h
  · exact anchored_toggleRun h now
  · exact anchored_togglePause h now
  · exact anchored_forward h now
  · exact anchored_forward h now
  · exact anchored_backward h
  · exact Anchored.live _
  · exact anchored_reload h file
  · exact h
  · exact h
  · exact h
  · rw [upBench, upReview]; exact h
  · rw [downBench, downReview]; exact h
  · exact h
  · exact h

theorem poll_of_isPaused (paused : m.bench.clock.isPaused = true) (now : Nat) : m.poll now = m := by
  rw [poll_eq, Bench.poll_of_not_isRunning (Bench.not_isRunning_of_isPaused paused)]
  rfl

theorem anchored_poll (h : Anchored m.bench m.review) (now : Nat) :
    Anchored (m.poll now).bench (m.poll now).review := by
  rcases hr : m.review with _ | back
  · have live : (m.poll now).review = none := by
      rw [poll_eq]
      exact hr
    rw [live]
    exact Anchored.live _
  · rw [poll_of_isPaused (h back hr).1]
    exact h

theorem anchored_apply (h : Anchored m.bench m.review) (e : Event) :
    Anchored (m.apply e).bench (m.apply e).review := by
  cases e with
  | key k now file => exact anchored_press h now file k
  | poll now => exact anchored_poll h now

theorem anchored_run (h : Anchored m.bench m.review) (events : List Event) :
    Anchored (m.run events).bench (m.run events).review := by
  induction events generalizing m with
  | nil => exact h
  | cons e events ih => exact ih (anchored_apply h e)

/-! ## There and back again -/

def Event.key? : Event → Option Key
  | .key k _ _ => some k
  | .poll _ => none

/-- The keys pressed in a run of events. -/
def keys (events : List Event) : List Key := events.filterMap Event.key?

/-- So many presses of the left key go that deep, or as deep as the history goes. -/
theorem run_lefts (paused : m.bench.clock.isPaused = true) (h : Anchored m.bench m.review) {k : Nat}
    {events : List Event} (lefts : keys events = List.replicate k .left) :
    (m.run events).bench = m.bench ∧
      (m.run events).depth = min (m.depth + k) m.bench.session.history.size := by
  induction events generalizing m k with
  | nil =>
    obtain rfl : k = 0 := by simpa [keys] using lefts.symm
    have := depth_le h
    exact ⟨rfl, by show m.depth = _; omega⟩
  | cons e events ih =>
    cases e with
    | poll now =>
      show ((m.poll now).run events).bench = _ ∧ ((m.poll now).run events).depth = _
      rw [poll_of_isPaused paused]
      exact ih paused h lefts
    | key c now file =>
      rcases k with _ | k
      · cases lefts
      · obtain ⟨rfl, rest⟩ := List.cons.inj (lefts : c :: keys events = .left :: List.replicate k .left)
        obtain ⟨hbench, hdepth⟩ := backward_of_isPaused paused h
        obtain ⟨restBench, restDepth⟩ := ih (m := m.backward) (by rw [hbench]; exact paused)
          (anchored_backward h) rest
        refine ⟨restBench.trans hbench, restDepth.trans ?_⟩
        rw [hbench, hdepth]
        omega

/-- As many presses of the right key as the shown step is deep lead to the live state. -/
theorem run_rights (paused : m.bench.clock.isPaused = true) {events : List Event}
    (rights : keys events = List.replicate m.depth .right) :
    (m.run events).bench = m.bench ∧ (m.run events).depth = 0 := by
  obtain ⟨k, hk⟩ : ∃ k, m.depth = k := ⟨_, rfl⟩
  induction events generalizing m k with
  | nil => exact ⟨rfl, by show m.depth = 0; simpa [keys] using rights.symm⟩
  | cons e events ih =>
    cases e with
    | poll now =>
      show ((m.poll now).run events).bench = _ ∧ ((m.poll now).run events).depth = _
      rw [poll_of_isPaused paused]
      exact ih paused rights k hk
    | key c now file =>
      rw [hk] at rights
      rcases k with _ | k
      · cases rights
      · obtain ⟨rfl, rest⟩ := List.cons.inj (rights : c :: keys events = .right :: List.replicate k .right)
        obtain ⟨hbench, hdepth⟩ := forward_of_depth_pos (m := m) (by omega) now
        have shallower : (m.forward now).depth = k := by omega
        obtain ⟨restBench, restDepth⟩ := ih (m := m.forward now) (by rw [hbench]; exact paused)
          (by rw [shallower]; exact rest) k shallower
        exact ⟨restBench.trans hbench, restDepth⟩

/-- Whatever is pressed and polled from a live state on: while a step is under review the clock is paused, the step is
one of those that the history holds, and the state that is shown is the recorded one so many steps behind the newest.
And from any paused run that is shown live, any number of presses of the left key and then as many of the right key, but
no more than the history holds steps, with polls at any time in between, lead back to the live state, with the clock and
the session as they were. -/
theorem review_recorded_and_read_only :
    (∀ (m : Monitor) (events : List Event), m.review = none →
      let m' := m.run events
      let history := m'.bench.session.history
      ∀ back, m'.review = some back →
        m'.bench.clock.isPaused = true ∧ back < history.size ∧ history.snapshots.reverse[back]? = some m'.displayed) ∧
    ∀ (m : Monitor), m.bench.clock.isPaused = true → m.review = none →
      ∀ (k : Nat) (lefts rights : List Event), keys lefts = List.replicate k .left →
        keys rights = List.replicate (min k m.bench.session.history.size) .right →
        (m.run (lefts ++ rights)).review = none ∧ (m.run (lefts ++ rights)).bench = m.bench := by
  constructor
  · intro m events live m' history back hback
    have start : Anchored m.bench m.review := by rw [live]; exact Anchored.live _
    obtain ⟨paused, deep⟩ := anchored_run start events back hback
    obtain ⟨x, hx⟩ := History.exists_fromNewest? deep
    have shown : m'.displayed = x := by rw [displayed, hback, Option.bind_some, hx, Option.getD_some]
    exact ⟨paused, deep, shown ▸ hx⟩
  · intro m paused live k lefts rights hlefts hrights
    have anchored : Anchored m.bench m.review := by rw [live]; exact Anchored.live _
    obtain ⟨backBench, backDepth⟩ := run_lefts paused anchored hlefts
    rw [depth_of_live live, Nat.zero_add] at backDepth
    obtain ⟨forthBench, forthDepth⟩ := run_rights (m := m.run lefts) (by rw [backBench]; exact paused)
      (by rw [backDepth]; exact hrights)
    have split : m.run (lefts ++ rights) = (m.run lefts).run rights := List.foldl_append
    rw [split]
    exact ⟨live_of_depth forthDepth, forthBench.trans backBench⟩

/-- Three ticks of a run are recorded. With one left key more than that the review stops at the first; the sketch that is
read again meanwhile waits, and three right keys lead back. -/
theorem review_recorded_and_read_only_blink :
    let source := "void loop() \x7b\nSerial.print(7);\ndigitalWrite(13, HIGH);\n\x7d\n".toList
    let m : Monitor := { bench := { session := (Session.new {} 1000).run [.load source] }, source, hasFile := true }
    let press (k : Key) : Event := .key k 300 (.ok [])
    let paused := m.run [press (.char ' '), .poll 350, .poll 400, .poll 450, press (.char 'p')]
    let lefts := [press .left, .poll 500, press .left, press .left, .poll 600, press .left]
    let rights := [press .right, .poll 700, press .right, press .right]
    let reviewing := paused.run (lefts ++ [press (.char 'l')])
    m.review = none ∧ reviewing.review = some 2 ∧ reviewing.pending = some [] ∧
      reviewing.bench.session.history.snapshots.reverse[2]? = some reviewing.displayed ∧
      reviewing.displayed.steps = 1 ∧ reviewing.bench.session.steps = 3 ∧
      paused.bench.clock.isPaused = true ∧ paused.review = none ∧
      keys lefts = List.replicate 4 .left ∧
      keys rights = List.replicate (min 4 paused.bench.session.history.size) .right ∧
      (paused.run (lefts ++ rights)).review = none ∧ (paused.run (lefts ++ rights)).bench = paused.bench := by
  intro source m press paused lefts rights reviewing
  obtain ⟨sound, readOnly⟩ := review_recorded_and_read_only
  have deep : reviewing.review = some 2 := by decide +kernel
  have isPaused : paused.bench.clock.isPaused = true := by decide +kernel
  have live : paused.review = none := by decide +kernel
  have three : keys rights = List.replicate (min 4 paused.bench.session.history.size) .right := by decide +kernel
  have run : m.run ([press (.char ' '), .poll 350, .poll 400, .poll 450, press (.char 'p')] ++
      (lefts ++ [press (.char 'l')])) = reviewing := List.foldl_append
  obtain ⟨-, -, recorded⟩ := run ▸ sound m _ rfl 2 (run ▸ deep)
  exact ⟨rfl, deep, by decide +kernel, recorded, by decide +kernel, by decide +kernel, isPaused, live, rfl, three,
    readOnly paused isPaused live 4 lefts rights rfl three⟩

end Monitor

end Breadboard
