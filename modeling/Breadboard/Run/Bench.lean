/-
  Breadboard.Run.Bench — a session driven by a clock of fixed period.

  The clock counts simulated time: each tick that fires moves it by one period and ticks the
  session. While it runs, a tick fires at a poll of the host's time that has reached the due
  time, one for each poll; a host that fell behind a whole period is not made up for, the
  next tick falls due one period from now. While it is paused, ticks are fired by hand.
  `runTicks` needs no host time at all.
-/

import Breadboard.Run.Session

namespace Breadboard

/-- Milliseconds between two ticks unless told otherwise. -/
def defaultPeriod : Nat := 50

inductive Drive where
  | stopped
  /-- The next tick falls due at this host time. -/
  | running (due : Nat)
  | paused
  deriving DecidableEq, Repr

structure Clock where
  period : Nat := defaultPeriod
  /-- Simulated time, a count of 64 bits. -/
  time : Nat := 0
  drive : Drive := .stopped
  deriving DecidableEq, Repr

namespace Clock

/-- A stopped clock; its period is at least one millisecond. -/
def new (period : Nat) : Clock := { period := max period 1 }

def isRunning (c : Clock) : Bool :=
  match c.drive with
  | .running _ => true
  | _ => false

def isPaused (c : Clock) : Bool := c.drive = .paused

def isStopped (c : Clock) : Bool := c.drive = .stopped

def pause (c : Clock) : Clock := if c.isRunning then { c with drive := .paused } else c

def resume (c : Clock) (now : Nat) : Clock :=
  if c.isPaused then { c with drive := .running (now + c.period) } else c

/-- When the tick after one that was due falls due. -/
def nextDue (c : Clock) (due now : Nat) : Nat :=
  if due + c.period ≤ now then now + c.period else due + c.period

end Clock

structure Bench where
  clock : Clock := {}
  session : Session := {}
  deriving DecidableEq, Repr

namespace Bench

/-- One tick of the clock. -/
def fire (b : Bench) : Bench :=
  let time := (b.clock.time + b.clock.period) % (Text.maxWord64 + 1)
  { clock := { b.clock with time }, session := b.session.tick time }

def start (b : Bench) (now : Nat) : Bench :=
  if b.clock.isStopped then
    { clock := { b.clock with time := 0, drive := .running (now + b.clock.period) }
      session := b.session.start }
  else b

def stop (b : Bench) : Bench :=
  { clock := { b.clock with time := 0, drive := .stopped }, session := b.session.stop }

def pause (b : Bench) : Bench := { b with clock := b.clock.pause }

def resume (b : Bench) (now : Nat) : Bench := { b with clock := b.clock.resume now }

/-- Fires a tick if one is due at this time, and says whether it did. -/
def poll (b : Bench) (now : Nat) : Bench × Bool :=
  match b.clock.drive with
  | .running due =>
    if due ≤ now then
      ({ b with clock := { b.clock with drive := .running (b.clock.nextDue due now) } }.fire, true)
    else (b, false)
  | _ => (b, false)

/-- Whether a poll at this time fires a tick. -/
def isDue (b : Bench) (now : Nat) : Bool := (b.poll now).2

/-- A tick by hand, which fires only while the clock is paused. -/
def step (b : Bench) : Bench × Bool := if b.clock.isPaused then (b.fire, true) else (b, false)

/-! ### What a poll or a step by hand does -/

section

variable {b : Bench} {due now : Nat}

theorem poll_of_le (running : b.clock.drive = .running due) (late : due ≤ now) :
    b.poll now = ({ b with clock := { b.clock with drive := .running (b.clock.nextDue due now) } }.fire, true) := by
  simp [poll, running, late]

theorem poll_of_lt (running : b.clock.drive = .running due) (early : now < due) : b.poll now = (b, false) := by
  simp [poll, running, Nat.not_le.2 early]

theorem poll_of_not_isRunning (h : b.clock.isRunning = false) (now : Nat) : b.poll now = (b, false) := by
  cases hd : b.clock.drive with
  | stopped => simp [poll, hd]
  | running due => simp [Clock.isRunning, hd] at h
  | paused => simp [poll, hd]

/-- A poll fires one tick, which was due, and the clock runs on; or it does nothing. -/
theorem poll_cases (b : Bench) (now : Nat) :
    (∃ due, b.clock.drive = .running due ∧ due ≤ now ∧
      b.poll now = ({ b with clock := { b.clock with drive := .running (b.clock.nextDue due now) } }.fire, true)) ∨
      b.poll now = (b, false) := by
  unfold poll
  split
  · next due running =>
    split
    · next late => exact .inl ⟨due, running, late, rfl⟩
    · exact .inr rfl
  · exact .inr rfl

theorem step_cases (b : Bench) : (b.clock.isPaused = true ∧ b.step = (b.fire, true)) ∨ b.step = (b, false) := by
  unfold step
  split
  · next paused => exact .inl ⟨paused, rfl⟩
  · exact .inr rfl

end

def fires (b : Bench) : Nat → Bench
  | 0 => b
  | n + 1 => b.fire.fires n

/-- Fires so many ticks at once; a stopped clock is left paused at the start of a run. -/
def runTicks (b : Bench) (n : Nat) : Bench :=
  let ready : Bench :=
    if b.clock.isStopped then
      { clock := { b.clock with time := 0, drive := .paused }, session := b.session.start }
    else b
  ready.fires n

/-! ## Events -/

inductive Event where
  | start (now : Nat)
  | stop
  | pause
  | resume (now : Nat)
  | poll (now : Nat)
  | step
  | runTicks (n : Nat)
  deriving DecidableEq, Repr

def apply (b : Bench) : Event → Bench
  | .start now => b.start now
  | .stop => b.stop
  | .pause => b.pause
  | .resume now => b.resume now
  | .poll now => (b.poll now).1
  | .step => b.step.1
  | .runTicks n => b.runTicks n

/-- The ticks that an event fires. -/
def fired (b : Bench) : Event → Nat
  | .poll now => (b.poll now).2.toNat
  | .step => b.step.2.toNat
  | .runTicks n => n
  | _ => 0

def run (b : Bench) (events : List Event) : Bench := events.foldl apply b

end Bench

end Breadboard
