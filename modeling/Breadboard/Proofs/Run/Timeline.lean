/-
  Breadboard.Proofs.Run.Timeline — at which tick each statement runs.

  A bench calls its session: `Bench.calls` lists what an event of the clock makes the session
  do, and `session_apply` says that it does nothing else. `Program.startTick` is the closed form:
  the first statement runs at tick 1, and each next one as many ticks later as the pause of the
  one before takes, at least one.

  Proved: `onTime_tick`, the invariant `OnTime` over one tick of a clock with fixed period, and
  from it the timetable of every headless run (`runTicks_timetable`).
-/

import Breadboard.Run.Bench
import Breadboard.Proofs.Run.Trace

namespace Breadboard

/-! ## What a bench does to its session -/

namespace Bench

/-- So many ticks of a clock that stands at a time. -/
def tickEvents (period : Nat) : Nat → Nat → List Session.Event
  | _, 0 => []
  | time, n + 1 =>
    let time := (time + period) % (Text.maxWord64 + 1)
    .tick time :: tickEvents period time n

def calls (b : Bench) : Event → List Session.Event
  | .start _ => if b.clock.isStopped then [.start] else []
  | .stop => [.stop]
  | .pause => []
  | .resume _ => []
  | .poll now => tickEvents b.clock.period b.clock.time (b.fired (.poll now))
  | .step => tickEvents b.clock.period b.clock.time (b.fired .step)
  | .runTicks n =>
    if b.clock.isStopped then .start :: tickEvents b.clock.period 0 n
    else tickEvents b.clock.period b.clock.time n

theorem session_fires (b : Bench) (n : Nat) :
    (b.fires n).session = b.session.run (tickEvents b.clock.period b.clock.time n) := by
  induction n generalizing b with
  | zero => rfl
  | succ n ih => rw [fires, ih]; rfl

/-- An event of the bench does to the session what its calls do, and nothing else. -/
theorem session_apply (b : Bench) (e : Event) : (b.apply e).session = b.session.run (b.calls e) := by
  cases e with
  | start now => simp only [apply, start, calls]; split <;> rfl
  | stop => rfl
  | pause => rfl
  | resume now => rfl
  | poll now =>
    simp only [apply, calls, fired]
    rcases b.poll_cases now with ⟨due, -, -, h⟩ | h
    · rw [h]; rfl
    · rw [h]; rfl
  | step =>
    simp only [apply, calls, fired]
    rcases b.step_cases with ⟨-, h⟩ | h
    · rw [h]; rfl
    · rw [h]; rfl
  | runTicks n =>
    simp only [apply, runTicks, calls]
    split
    · rw [session_fires]; rfl
    · exact session_fires b n

/-- What the events of a bench execute. -/
def trace (b : Bench) : List Event → List Execution
  | [] => []
  | e :: es => b.session.trace (b.calls e) ++ (b.apply e).trace es

/-- All that a list of events makes the session do. -/
def callsOf (b : Bench) : List Event → List Session.Event
  | [] => []
  | e :: es => b.calls e ++ (b.apply e).callsOf es

theorem session_run (b : Bench) (es : List Event) : (b.run es).session = b.session.run (b.callsOf es) := by
  induction es generalizing b with
  | nil => rfl
  | cons e es ih =>
    show ((b.apply e).run es).session = _
    rw [ih, session_apply, callsOf, Session.run_append]

theorem trace_eq (b : Bench) (es : List Event) : b.trace es = b.session.trace (b.callsOf es) := by
  induction es generalizing b with
  | nil => rfl
  | cons e es ih => rw [trace, callsOf, Session.trace_append, ih, session_apply]

/-! ## Ticks of a fixed period -/

/-- The time that a clock shows after so many ticks. -/
def timeAfter (period : Nat) : Nat → Nat → Nat
  | time, 0 => time
  | time, n + 1 => timeAfter period ((time + period) % (Text.maxWord64 + 1)) n

theorem timeAfter_eq {period time n : Nat} (h : time + n * period ≤ Text.maxWord64) :
    timeAfter period time n = time + n * period := by
  induction n generalizing time with
  | zero => simp [timeAfter]
  | succ n ih =>
    rw [Nat.succ_mul] at h ⊢
    rw [timeAfter, Nat.mod_eq_of_lt (by omega), ih (by omega)]
    omega

theorem clock_fires (b : Bench) (n : Nat) :
    (b.fires n).clock = { b.clock with time := timeAfter b.clock.period b.clock.time n } := by
  induction n generalizing b with
  | zero => rfl
  | succ n ih => rw [fires, ih]; rfl

theorem tickEvents_add (period time m n : Nat) :
    tickEvents period time (m + n) = tickEvents period time m ++ tickEvents period (timeAfter period time m) n := by
  induction m generalizing time with
  | zero => simp [tickEvents, timeAfter]
  | succ m ih => rw [Nat.add_right_comm, tickEvents, tickEvents, timeAfter, ih]; rfl

/-- As long as the count of 64 bits does not end, tick `k` has time `k * period`. -/
theorem tickEvents_eq {period time n : Nat} (h : time + n * period ≤ Text.maxWord64) :
    tickEvents period time n = (List.range n).map fun i => .tick (time + (i + 1) * period) := by
  induction n with
  | zero => rfl
  | succ n ih =>
    have e : time + n * period + period = time + (n + 1) * period := by rw [Nat.succ_mul, Nat.add_assoc]
    rw [tickEvents_add, ih (by omega), timeAfter_eq (by omega), List.range_succ, List.map_append, tickEvents,
      tickEvents, e, Nat.mod_eq_of_lt (by omega)]
    rfl

/-! ## Headless runs -/

theorem callsOf_runTicks {b : Bench} (running : b.clock.isStopped = false) (ns : List Nat) :
    b.callsOf (ns.map .runTicks) = tickEvents b.clock.period b.clock.time ns.sum := by
  induction ns generalizing b with
  | nil => rfl
  | cons n ns ih =>
    have hb : b.apply (.runTicks n) = b.fires n := by simp [apply, runTicks, running]
    have hc := clock_fires b n
    rw [List.map_cons, callsOf, hb, ih (by rw [hc]; exact running), hc, List.sum_cons, tickEvents_add]
    simp [calls, running]

/-- A stopped clock starts the session at the first call, however few ticks that one asks for. -/
theorem callsOf_runTicks_stopped {b : Bench} (stopped : b.clock.isStopped = true) {ns : List Nat} (h : ns ≠ []) :
    b.callsOf (ns.map .runTicks) = .start :: tickEvents b.clock.period 0 ns.sum := by
  obtain ⟨n, ns, rfl⟩ := List.exists_cons_of_ne_nil h
  have hc : (b.apply (.runTicks n)).clock =
      { b.clock with time := timeAfter b.clock.period 0 n, drive := .paused } := by
    simp only [apply, runTicks, stopped, if_true]
    exact clock_fires _ n
  have hr : (b.apply (.runTicks n)).clock.isStopped = false := by rw [hc]; rfl
  rw [List.map_cons, callsOf, callsOf_runTicks hr, hc, List.sum_cons, tickEvents_add]
  simp [calls, stopped]

end Bench

/-! ## The timetable -/

namespace Program

/-- How long the statement at a place makes the run wait. -/
def duration (p : Program) (k : Nat) : Nat := ((p.nth? k).bind (·.statement.pause?)).getD 0

/-- The tick at which the statement at a place runs, when ticks are so far apart. -/
def startTick (p : Program) (period : Nat) : Nat → Nat
  | 0 => 1
  | k + 1 => p.startTick period k + max 1 ((p.duration k + period - 1) / period)

theorem startTick_strictMono (p : Program) (period : Nat) : StrictMono (p.startTick period) :=
  strictMono_nat_of_lt_succ fun k => by rw [startTick]; omega

end Program

theorem lt_ceil_iff {period : Nat} (h : 0 < period) (d i : Nat) : i < (d + period - 1) / period ↔ i * period < d := by
  rw [← Nat.succ_le_iff, Nat.le_div_iff_mul_le h, Nat.succ_mul]
  omega

namespace Session

variable {p : Program} {period m : Nat} {s : Session} {done : List Execution}

/-- After `m` ticks of a fixed period: what ran are the statements that start by then, each at its tick,
    and the gate lets the next one through at its own. -/
structure OnTime (p : Program) (period m : Nat) (s : Session) (done : List Execution) : Prop where
  follows : Follows p s done
  ran : ∀ k x, done[k]? = some x ↔
    ∃ n, p.nth? k = some n ∧ p.startTick period k ≤ m ∧ x = ⟨p.startTick period k * period, n⟩
  gate : p.nth? done.length ≠ none → ∀ m', m < m' → m' * period < Text.maxWord64 →
    (s.progress.isGated (m' * period) = true ↔ m' < p.startTick period done.length)

theorem OnTime.le_of_lt (h : OnTime p period m s done) {k : Nat} (hk : k < done.length) : p.startTick period k ≤ m := by
  obtain ⟨_, _, hm, _⟩ := (h.ran k done[k]).mp (List.getElem?_eq_getElem hk)
  exact hm

theorem OnTime.lt_next (h : OnTime p period m s done) {n : Node} (hn : p.nth? done.length = some n) :
    m < p.startTick period done.length := by
  by_contra hm
  have := (h.ran done.length _).mpr ⟨n, hn, by omega, rfl⟩
  simp at this

/-- A tick at which no statement is due adds nothing. -/
theorem OnTime.ran_idle (h : OnTime p period m s done)
    (none_due : p.nth? done.length ≠ none → m + 1 < p.startTick period done.length) (k : Nat) (x : Execution) :
    done[k]? = some x ↔
      ∃ n, p.nth? k = some n ∧ p.startTick period k ≤ m + 1 ∧ x = ⟨p.startTick period k * period, n⟩ := by
  rw [h.ran]
  constructor
  · intro h0
    obtain ⟨n, hn, hm, hx⟩ := h0
    exact ⟨n, hn, by omega, hx⟩
  · intro h0
    obtain ⟨n, hn, hm, hx⟩ := h0
    refine ⟨n, hn, ?_, hx⟩
    by_cases hk : k < done.length
    · exact h.le_of_lt hk
    · have hne : p.nth? done.length ≠ none := fun e => by
        rw [Program.nth?_eq_none_of_le e (by omega)] at hn; cases hn
      have := none_due hne
      have := (p.startTick_strictMono period).monotone (show done.length ≤ k by omega)
      omega

theorem onTime_execute (h : OnTime p period m s done) (hp : 0 < period) {n : Node} (hn : s.next? = some n)
    (opened : s.progress.isGated ((m + 1) * period) = false) (hmax : (m + 1) * period < Text.maxWord64) :
    OnTime p period (m + 1) ((s.ungated ((m + 1) * period)).execute ((m + 1) * period) n).record
      (done ++ [⟨(m + 1) * period, n⟩]) := by
  have hnth : p.nth? done.length = some n := by rw [← h.follows.next?, hn]
  have hgate := h.gate (by simp [hnth]) (m + 1) (by omega) hmax
  have hlt := h.lt_next hnth
  have hnow : p.startTick period done.length = m + 1 := by
    rw [opened] at hgate
    simp only [Bool.false_eq_true, false_iff] at hgate
    omega
  refine ⟨follows_execute h.follows hn, ?_, ?_⟩
  · intro k x
    by_cases hk : k < done.length
    · rw [List.getElem?_append_left hk, h.ran]
      have hle := h.le_of_lt hk
      constructor
      · intro h0
        obtain ⟨n', hn', _, hx⟩ := h0
        exact ⟨n', hn', by omega, hx⟩
      · intro h0
        obtain ⟨n', hn', _, hx⟩ := h0
        exact ⟨n', hn', hle, hx⟩
    by_cases hlast : k = done.length
    · subst hlast
      simp only [List.getElem?_concat_length, Option.some.injEq, hnth, hnow, Nat.le_refl, true_and,
        exists_eq_left']
      exact eq_comm
    · rw [List.getElem?_eq_none (by simp; omega)]
      constructor
      · intro e; cases e
      · intro h0
        obtain ⟨_, _, hm, _⟩ := h0
        have := p.startTick_strictMono period (show done.length < k by omega)
        omega
  · intro _ m' hm' hmax'
    rw [record_progress, List.length_append, List.length_singleton, Program.startTick, hnow]
    -- The gate that this statement leaves, seen from a later tick.
    have hd : p.duration done.length = n.statement.pause?.getD 0 := by simp [Program.duration, hnth]
    have hceil := lt_ceil_iff hp (p.duration done.length) (m' - (m + 1))
    have hmul : m' * period = (m + 1) * period + (m' - (m + 1)) * period := by
      rw [← Nat.add_mul]; congr 1; omega
    have hw := ungated_execute_wakeAt opened n
    cases hpause : n.statement.pause? with
    | none =>
      rw [hpause] at hd hw
      simp only [Option.getD_none] at hd
      rw [hd] at hceil ⊢
      simp only [Progress.isGated, hw, Option.map_none, Bool.false_eq_true, false_iff]
      omega
    | some d =>
      rw [hpause] at hd hw
      simp only [Option.getD_some] at hd
      rw [hd] at hceil ⊢
      simp only [Progress.isGated, hw, Option.map_some, wakeTime, decide_eq_true_eq]
      omega

/-- One tick later the timetable still holds. -/
theorem onTime_tick (h : OnTime p period m s done) (hp : 0 < period) (hmax : (m + 1) * period < Text.maxWord64) :
    OnTime p period (m + 1) (s.tick ((m + 1) * period))
      (done ++ (s.executed? (.tick ((m + 1) * period))).toList) := by
  have hf := follows_apply h.follows (e := .tick ((m + 1) * period)) (by simp)
  have later : ∀ m', m + 1 < m' → m < m' := fun m' hm' => by omega
  rcases tick_cases s ((m + 1) * period) with ⟨_, hn, e⟩ | ⟨_, hg, e⟩ | ⟨_, _, hn, e⟩ | ⟨n, hg, hn, e⟩
  · have hnone : p.nth? done.length = none := by rw [← h.follows.next?, hn]
    have he := executed?_of_steps_eq s ((m + 1) * period) (by rw [e])
    rw [he] at hf ⊢
    simp only [Option.toList_none, List.append_nil] at hf ⊢
    exact ⟨hf, h.ran_idle (fun hne => absurd hnone hne), fun hne => absurd hnone hne⟩
  · have he := executed?_of_steps_eq s ((m + 1) * period) (by rw [e])
    rw [he] at hf ⊢
    simp only [Option.toList_none, List.append_nil] at hf ⊢
    refine ⟨hf, h.ran_idle fun hne => (h.gate hne (m + 1) (by omega) hmax).mp hg, ?_⟩
    intro hne m' hm' hmax'
    rw [e]
    exact h.gate hne m' (later m' hm') hmax'
  · have hnone : p.nth? done.length = none := by rw [← h.follows.next?, hn]
    have he := executed?_of_steps_eq s ((m + 1) * period) (by rw [e]; rfl)
    rw [he] at hf ⊢
    simp only [Option.toList_none, List.append_nil] at hf ⊢
    exact ⟨hf, h.ran_idle (fun hne => absurd hnone hne), fun hne => absurd hnone hne⟩
  · rw [executed?_of_open hn e, e]
    exact onTime_execute h hp hn hg hmax

theorem onTime_start (fresh : Fresh s) (period : Nat) : OnTime s.program period 0 s.start [] := by
  refine ⟨follows_start fresh, ?_, ?_⟩
  · intro k x
    have hpos : 0 < s.program.startTick period k :=
      Nat.lt_of_lt_of_le Nat.one_pos ((s.program.startTick_strictMono period).monotone (Nat.zero_le k))
    simp only [List.getElem?_nil, reduceCtorEq, false_iff, not_exists]
    intro n h0
    obtain ⟨_, hle, _⟩ := h0
    omega
  · intro _ m' hm' _
    have hw : s.start.progress.isGated (m' * period) = false := by
      rw [start_of_idle fresh.isStarted]
      simp only [fresh.progress, Progress.start]
      split
      · rfl
      · split
        · rfl
        · split <;> rfl
    rw [hw]
    simp only [Bool.false_eq_true, List.length_nil, Program.startTick, false_iff]
    omega

theorem onTime_ticks (fresh : Fresh s) (period n : Nat) (hp : 0 < period) (hmax : n * period < Text.maxWord64) :
    OnTime s.program period n (s.start.run (Bench.tickEvents period 0 n))
      (s.start.trace (Bench.tickEvents period 0 n)) := by
  rw [Bench.tickEvents_eq (by omega)]
  induction n with
  | zero => exact onTime_start fresh period
  | succ n ih =>
    have hn : n * period < Text.maxWord64 := by rw [Nat.succ_mul] at hmax; omega
    rw [List.range_succ, List.map_append, run_append, trace_append]
    simpa [run, trace, apply] using onTime_tick (ih hn) hp hmax

end Session

/-- The statements that start by a tick are those at the places that a trace on time has filled. -/
theorem Session.OnTime.ncard_started {p : Program} {period m : Nat} {s : Session} {done : List Execution}
    (h : OnTime p period m s done) : {k | (p.nth? k).isSome ∧ p.startTick period k ≤ m}.ncard = done.length := by
  have : {k | (p.nth? k).isSome ∧ p.startTick period k ≤ m} = (Finset.range done.length : Set Nat) := by
    ext k
    simp only [Set.mem_ofPred_eq, Finset.coe_range, Set.mem_Iio]
    constructor
    · intro h0
      obtain ⟨hs, hm⟩ := h0
      obtain ⟨n, hn⟩ := Option.isSome_iff_exists.mp hs
      have := (h.ran k _).mpr ⟨n, hn, hm, rfl⟩
      exact (List.getElem?_eq_some_iff.mp this).1
    · intro hk
      obtain ⟨n, hn, hm, _⟩ := (h.ran k done[k]).mp (List.getElem?_eq_getElem hk)
      exact ⟨by simp [hn], hm⟩
  rw [this, Set.ncard_coe_finset, Finset.card_range]

/-- A stopped clock and an idle session, driven by any calls for `n` ticks together: the statements that
    have run are those that start by tick `n` in the timetable of the program, and each ran at the
    simulated time of its tick. -/
theorem runTicks_timetable (peripherals : Registry) (limit : Nat) (before : List Session.Event) (p : Program)
    (clock : Clock) (ns : List Nat) (idle : ((Session.new peripherals limit).run before).isStarted = false)
    (stopped : clock.isStopped = true) (positive : 1 ≤ clock.period)
    (inTime : ns.sum * clock.period < 2 ^ 64 - 1) :
    let b : Bench := { clock, session := ((Session.new peripherals limit).run before).loadProgram p }
    let events := ns.map Bench.Event.runTicks
    let steps := (b.run events).session.steps
    steps = {k | (p.nth? k).isSome ∧ p.startTick clock.period k ≤ ns.sum}.ncard ∧
      (b.trace events).length = steps ∧
      ∀ k n, p.nth? k = some n → p.startTick clock.period k ≤ ns.sum →
        (b.trace events)[k]? = some ⟨p.startTick clock.period k * clock.period, n⟩ := by
  intro b events steps
  have fresh : b.session.Fresh := Session.fresh_loadProgram (Session.fresh_of_idle idle) p
  have hp : b.session.program = p := by simp [b, Session.loadProgram, idle]
  by_cases hns : ns = []
  · have hsteps : steps = 0 := by simp [steps, events, hns, Bench.run, fresh.steps]
    have early : ∀ k, ¬ p.startTick clock.period k ≤ ns.sum := fun k => by
      have := (p.startTick_strictMono clock.period).monotone (Nat.zero_le k)
      simp only [hns, List.sum_nil, Program.startTick] at this ⊢
      omega
    exact ⟨by simp [hsteps, early], by simp [hsteps, events, hns, Bench.trace], fun k n _ hk => absurd hk (early k)⟩
  · have h := Session.onTime_ticks fresh clock.period ns.sum positive inTime
    have hcalls : b.callsOf events = .start :: Bench.tickEvents clock.period 0 ns.sum :=
      Bench.callsOf_runTicks_stopped stopped hns
    have htrace : b.trace events = b.session.start.trace (Bench.tickEvents clock.period 0 ns.sum) := by
      rw [Bench.trace_eq, hcalls]; rfl
    have hsteps : steps = (b.session.start.run (Bench.tickEvents clock.period 0 ns.sum)).steps := by
      show (b.run events).session.steps = _
      rw [Bench.session_run, hcalls]; rfl
    rw [← htrace, hp] at h
    have hlen : (b.trace events).length = steps := by rw [hsteps, h.follows.steps]
    exact ⟨by rw [h.ncard_started, hlen], hlen, fun k n hn hk => (h.ran k _).mpr ⟨n, hn, hk, rfl⟩⟩

/-- A delay of 120 ms takes three ticks of 50 ms: the loop starts over at tick 5, the last of the two calls. -/
theorem runTicks_timetable_blink :
    let p : Program :=
      { loop := [⟨.write (.number 13) .high, "digitalWrite(13, HIGH);".toList, 2⟩,
          ⟨.delay 120, "delay(120);".toList, 3⟩] }
    let clock : Clock := { period := 50 }
    let ns := [2, 0, 3]
    let b : Bench := { clock, session := ((Session.new {} 0).run []).loadProgram p }
    ((Session.new {} 0).run []).isStarted = false ∧ clock.isStopped = true ∧ 1 ≤ clock.period ∧
      ns.sum * clock.period < 2 ^ 64 - 1 ∧
      (b.trace (ns.map Bench.Event.runTicks))[2]? =
        some ⟨250, ⟨.write (.number 13) .high, "digitalWrite(13, HIGH);".toList, 2⟩⟩ := by
  intro p clock ns b
  have inTime : ns.sum * clock.period < 2 ^ 64 - 1 := by decide
  obtain ⟨_, _, ran⟩ := runTicks_timetable {} 0 [] p clock ns rfl rfl (by decide) inTime
  have again := ran 2 ⟨.write (.number 13) .high, "digitalWrite(13, HIGH);".toList, 2⟩ (by decide) (by decide)
  have at5 : p.startTick clock.period 2 * clock.period = 250 := by decide
  rw [at5] at again
  exact ⟨rfl, rfl, by decide, inTime, again⟩

end Breadboard
