/-
  Breadboard.Proofs.Run.Polling — when the ticks of a polled clock fire.

  A clock that is started and then only polled fires at most one tick for each poll. The host's time
  may be counted in any unit in which the period is a whole number. `Paced` says of the polls so far
  how many ticks have fired and when the next one falls due: never earlier than one period for each
  tick, the next one included.

  Proved: `Paced` holds after every poll (`paced_polls`). A host that polls at least once in every
  period keeps the due time on the grid of the start (`due_of_punctual`). So a polled clock is never
  ahead of the host, never owes more than one tick, and is exact for a punctual host
  (`polls_keep_pace`).
-/

import Breadboard.Proofs.Run.HostTime

namespace Breadboard

/-- The time after one that was due: later than now by at most a period, and later than that one by at least a period, by
just one if now is not later than that. -/
theorem Clock.nextDue_spec (c : Clock) (positive : 1 ≤ c.period) {due now : Nat} (h : due ≤ now) :
    now < c.nextDue due now ∧ c.nextDue due now ≤ now + c.period ∧ due + c.period ≤ c.nextDue due now ∧
      (now < due + c.period → c.nextDue due now = due + c.period) := by
  unfold nextDue
  split
  · next late => exact ⟨by omega, by omega, by omega, fun early => absurd late (by omega)⟩
  · next early => exact ⟨by omega, by omega, by omega, fun _ => rfl⟩

namespace Bench

theorem run_append (b : Bench) (es es' : List Event) : b.run (es ++ es') = (b.run es).run es' := List.foldl_append

theorem firedIn_append (b : Bench) (es es' : List Event) :
    b.firedIn (es ++ es') = b.firedIn es + (b.run es).firedIn es' := by
  induction es generalizing b with
  | nil => exact (Nat.zero_add _).symm
  | cons e es ih =>
    rw [List.cons_append, firedIn, firedIn, ih, Nat.add_assoc]
    rfl

/-! ## Polls -/

/-- The clock of a bench that was started at `t₀` and then polled at these times: so many ticks have fired, and the next
one falls due. -/
structure Paced (t₀ period : Nat) (polls : List Nat) (fired due : Nat) (c : Clock) : Prop where
  running : c.drive = .running due
  pace : c.period = period
  ahead : ∀ x ∈ polls, x < due
  spaced : t₀ + (fired + 1) * period ≤ due
  earned : fired ≠ 0 → ∃ x ∈ polls, t₀ + fired * period ≤ x

section

variable {t₀ period fired due now : Nat} {polls : List Nat} {b : Bench}

theorem paced_start (stopped : b.clock.isStopped = true) (t₀ : Nat) :
    Paced t₀ b.clock.period [] 0 (t₀ + b.clock.period) (b.start t₀).clock := by
  simp only [start, stopped, if_true]
  exact ⟨rfl, rfl, by simp, by simp, by simp⟩

/-- One poll: where it leaves the clock, and when the next tick falls due if it fired one, or if it did not come a period
late. -/
theorem Paced.poll (h : Paced t₀ period polls fired due b.clock) (positive : 1 ≤ period)
    (ordered : ∀ x ∈ polls, x ≤ now) :
    ∃ due', Paced t₀ period (polls ++ [now]) (fired + b.fired (.poll now)) due' (b.poll now).1.clock ∧
      (b.isDue now = true → now < due' ∧ due' ≤ now + period) ∧
      (now < due + period → due = t₀ + (fired + 1) * period →
        due' = t₀ + (fired + b.fired (.poll now) + 1) * period) := by
  by_cases hn : due ≤ now
  · have polled := poll_of_le h.running hn
    obtain ⟨above, within, later, regular⟩ := b.clock.nextDue_spec (h.pace.symm ▸ positive) hn
    rw [h.pace] at within later regular
    have next : (fired + 1 + 1) * period = (fired + 1) * period + period := Nat.succ_mul _ _
    have spaced := h.spaced
    rw [isDue, Bench.fired, polled, Bool.toNat_true]
    refine ⟨b.clock.nextDue due now, ⟨rfl, h.pace, ?_, by omega, fun _ => ⟨now, by simp, by omega⟩⟩,
      fun _ => ⟨above, within⟩, fun early hdue => ?_⟩
    · intro x hx
      rcases List.mem_append.1 hx with hx | hx
      · have := ordered x hx
        omega
      · rwa [List.mem_singleton.1 hx]
    · have := regular early
      omega
  · rw [isDue, Bench.fired, poll_of_lt h.running (Nat.lt_of_not_le hn)]
    refine ⟨due, ⟨h.running, h.pace, ?_, h.spaced, fun some => ?_⟩, fun hd => absurd hd Bool.false_ne_true,
      fun _ hdue => hdue⟩
    · intro x hx
      rcases List.mem_append.1 hx with hx | hx
      · exact h.ahead x hx
      · rw [List.mem_singleton.1 hx]
        omega
    · obtain ⟨x, hx, hle⟩ := h.earned some
      exact ⟨x, List.mem_append_left _ hx, hle⟩

section

variable {c : Clock} {x : Nat} (upTo : ∀ y ∈ polls, y ≤ x)

include upTo

theorem Paced.earned_le (h : Paced t₀ period polls fired due c) (some : 0 < fired) : t₀ + fired * period ≤ x := by
  obtain ⟨y, hy, earned⟩ := h.earned (Nat.ne_of_gt some)
  exact Nat.le_trans earned (upTo y hy)

/-- While the due time is on the grid of the start, a tick has fired for each whole period. -/
theorem Paced.fired_eq (h : Paced t₀ period polls fired (t₀ + (fired + 1) * period) c) (hx : x ∈ polls)
    (since : t₀ ≤ x) : fired = (x - t₀) / period := by
  have below : x < t₀ + (fired + 1) * period := h.ahead x hx
  have reached : t₀ + fired * period ≤ x := by
    rcases Nat.eq_zero_or_pos fired with rfl | some
    · omega
    · exact h.earned_le upTo some
  refine (Nat.div_eq_of_lt_le ?_ ?_).symm
  · omega
  · omega

end

theorem run_polls_concat (b : Bench) (polls : List Nat) (x : Nat) :
    b.run ((polls ++ [x]).map .poll) = ((b.run (polls.map .poll)).poll x).1 := by
  rw [List.map_append, run_append]
  rfl

theorem firedIn_polls_concat (b : Bench) (polls : List Nat) (x : Nat) :
    b.firedIn ((polls ++ [x]).map .poll) =
      b.firedIn (polls.map .poll) + (b.run (polls.map .poll)).fired (.poll x) := by
  rw [List.map_append, firedIn_append]
  rfl

theorem ordered_concat {polls : List Nat} {x : Nat} (h : (polls ++ [x]).Pairwise (· ≤ ·)) :
    polls.Pairwise (· ≤ ·) ∧ ∀ y ∈ polls, y ≤ x := by
  obtain ⟨earlier, -, last⟩ := List.pairwise_append.1 h
  exact ⟨earlier, fun y hy => last y hy x (List.mem_singleton.2 rfl)⟩

theorem paced_polls (h : Paced t₀ period [] 0 due b.clock) (positive : 1 ≤ period)
    (ordered : polls.Pairwise (· ≤ ·)) :
    ∃ due', Paced t₀ period polls (b.firedIn (polls.map .poll)) due' (b.run (polls.map .poll)).clock := by
  induction polls using List.reverseRecOn with
  | nil => exact ⟨due, h⟩
  | append_singleton polls x ih =>
    obtain ⟨earlier, last⟩ := ordered_concat ordered
    obtain ⟨due', paced⟩ := ih earlier
    obtain ⟨due'', paced', -⟩ := paced.poll positive last
    rw [run_polls_concat, firedIn_polls_concat]
    exact ⟨due'', paced'⟩

/-- A host that never lets more than a period go by keeps the due time on the grid of the start. -/
theorem due_of_punctual (h : Paced t₀ period [] 0 (t₀ + period) b.clock) (positive : 1 ≤ period)
    (ordered : polls.Pairwise (· ≤ ·)) (punctual : (t₀ :: polls).IsChain fun x y => y ≤ x + period) :
    Paced t₀ period polls (b.firedIn (polls.map .poll)) (t₀ + (b.firedIn (polls.map .poll) + 1) * period)
      (b.run (polls.map .poll)).clock := by
  induction polls using List.reverseRecOn with
  | nil => simpa [firedIn, run] using h
  | append_singleton polls x ih =>
    obtain ⟨earlier, last⟩ := ordered_concat ordered
    rw [← List.cons_append, List.isChain_append] at punctual
    obtain ⟨punctual, -, close⟩ := punctual
    have paced := ih earlier punctual
    -- the poll or start before this one was not later than the due time, so this one is not a period later
    have inTime : x < t₀ + (b.firedIn (polls.map .poll) + 1) * period + period := by
      obtain ⟨y, hy⟩ := Option.ne_none_iff_exists'.1 (mt List.getLast?_eq_none_iff.1 (List.cons_ne_nil t₀ polls))
      have step := close y hy x rfl
      have := paced.spaced
      have grid : (b.firedIn (polls.map .poll) + 1) * period = b.firedIn (polls.map .poll) * period + period :=
        Nat.succ_mul _ _
      rcases List.mem_cons.1 (List.mem_of_getLast? hy) with rfl | hy
      · omega
      · have := paced.ahead y hy
        omega
    obtain ⟨due', paced', -, regular⟩ := paced.poll positive last
    rw [run_polls_concat, firedIn_polls_concat, ← regular inTime rfl]
    exact paced'

end

/-- A stopped clock that is started at `t₀` and then polled at times that do not go back, the last one at `x`. Where `f`
ticks have fired, the bench stands where `f` ticks leave it, and: `f` periods have passed since the start, if any tick
fired; if the last poll fired one, the next one falls due later than it, by at most a period; and if the first poll came
at most a period after the start and each next one at most a period after the one before, just as many ticks fired as
whole periods have passed. -/
theorem polls_keep_pace (clock : Clock) (session : Session) (stopped : clock.isStopped = true)
    (positive : 1 ≤ clock.period) (t₀ : Nat) (polls : List Nat) (x : Nat)
    (ordered : (polls ++ [x]).Pairwise (· ≤ ·)) :
    let b := ({ clock, session } : Bench).start t₀
    let before := b.run (polls.map .poll)
    let after := b.run ((polls ++ [x]).map .poll)
    let f := b.firedIn ((polls ++ [x]).map .poll)
    Driven clock.period session.start f after ∧
      (0 < f → t₀ + f * clock.period ≤ x) ∧
      (before.isDue x = true →
        ∃ due, after.clock.drive = .running due ∧ x < due ∧ due ≤ x + clock.period) ∧
      ((t₀ :: (polls ++ [x])).IsChain (fun y z => z ≤ y + clock.period) → t₀ ≤ x →
        f = (x - t₀) / clock.period) := by
  intro b before after f
  have begun : Paced t₀ clock.period [] 0 (t₀ + clock.period) b.clock :=
    paced_start (b := { clock, session }) stopped t₀
  obtain ⟨earlier, last⟩ := ordered_concat ordered
  have upTo : ∀ y ∈ polls ++ [x], y ≤ x := by
    intro y hy
    rcases List.mem_append.1 hy with hy | hy
    · exact last y hy
    · exact Nat.le_of_eq (List.mem_singleton.1 hy)
  refine ⟨?_, fun some => ?_, fun isDue => ?_, fun punctual since => ?_⟩
  · have noStop : ∀ e ∈ (polls ++ [x]).map Event.poll, e ≠ .stop := by
      intro e he
      obtain ⟨y, -, rfl⟩ := List.mem_map.1 he
      simp
    have none : ({ clock, session } : Bench).fired (.start t₀) = 0 := rfl
    have driven := driven_run (driven_begin (b := { clock, session }) stopped (e := .start t₀) rfl) noStop
    rwa [none, Nat.zero_add] at driven
  · obtain ⟨due, paced⟩ := paced_polls begun positive ordered
    exact paced.earned_le upTo some
  · obtain ⟨due, paced⟩ := paced_polls begun positive earlier
    obtain ⟨due', paced', window, -⟩ := paced.poll positive last
    refine ⟨due', ?_, window isDue⟩
    show (b.run ((polls ++ [x]).map .poll)).clock.drive = _
    rw [run_polls_concat]
    exact paced'.running
  · have paced := due_of_punctual begun positive ordered punctual
    exact paced.fired_eq upTo (by simp) since

/-- Polls that come in time, right when a tick is due or in between, and a host that falls behind and is not made up
for. -/
theorem polls_keep_pace_late :
    let clock : Clock := { period := 50 }
    let b := ({ clock, session := {} } : Bench).start 1000
    let inTime := [1050, 1090] ++ [1100]
    let late := [1050] ++ [1900]
    clock.isStopped = true ∧ 1 ≤ clock.period ∧ inTime.Pairwise (· ≤ ·) ∧
      (1000 :: inTime).IsChain (fun y z => z ≤ y + clock.period) ∧
      b.firedIn (inTime.map .poll) = (1100 - 1000) / clock.period ∧
      Driven clock.period ({} : Session).start (b.firedIn (inTime.map .poll)) (b.run (inTime.map .poll)) ∧
      late.Pairwise (· ≤ ·) ∧ (b.run ([1050].map .poll)).isDue 1900 = true ∧
      b.firedIn (late.map .poll) = 2 ∧ 1000 + b.firedIn (late.map .poll) * clock.period ≤ 1900 ∧
      ∃ due, (b.run (late.map .poll)).clock.drive = .running due ∧ 1900 < due ∧ due ≤ 1900 + clock.period := by
  intro clock b inTime late
  have ordered : inTime.Pairwise (· ≤ ·) := by decide
  have punctual : (1000 :: inTime).IsChain (fun y z => z ≤ y + clock.period) := by decide
  have orderedLate : late.Pairwise (· ≤ ·) := by decide
  have behind : (b.run ([1050].map .poll)).isDue 1900 = true := by decide
  have two : b.firedIn (late.map .poll) = 2 := by decide
  have some : 0 < b.firedIn (late.map .poll) := two ▸ by decide
  obtain ⟨driven, -, -, asDue⟩ := polls_keep_pace clock {} rfl (by decide) 1000 [1050, 1090] 1100 ordered
  obtain ⟨-, earned, window, -⟩ := polls_keep_pace clock {} rfl (by decide) 1000 [1050] 1900 orderedLate
  exact ⟨rfl, by decide, ordered, punctual, asDue punctual (by decide), driven, orderedLate, behind, two, earned some,
    window behind⟩

end Bench

end Breadboard
