/-
  Breadboard.Proofs.Run.Restart — what a run takes from the loads during it, and what it leaves.

  A sketch that is loaded while a run is under way waits. `run_eq_plain` says that a started
  session goes the same way with and without such loads, but for what waits in the end, which
  is the sketch loaded last. When the run is stopped, that sketch takes over, and of all else
  only the parts are left, dark as at first.

  Proved: loads during a run change nothing that can be seen of it (`run_ignores_loads`), and a
  session that is stopped is a new one with the same parts and the same limit and with the
  sketch that waited, or the one it had (`stop_eq_new`).
-/

import Breadboard.Proofs.Run.Session

namespace Breadboard.Session

/-- The source that an event loads. -/
def Event.source? : Event → Option Text
  | .load source => some source
  | _ => none

/-- The events without the loads. -/
def plain (es : List Event) : List Event := es.filter (·.source?.isNone)

/-- The source that was loaded last. -/
def lastSource? (es : List Event) : Option Text := (es.filterMap Event.source?).getLast?

variable {s : Session} {e : Event} {es : List Event}

theorem plain_concat (es : List Event) (e : Event) :
    plain (es ++ [e]) = if e.source? = none then plain es ++ [e] else plain es := by
  cases h : e.source? <;> simp [plain, h]

theorem lastSource?_concat (es : List Event) (e : Event) :
    lastSource? (es ++ [e]) = e.source?.or (lastSource? es) := by
  cases h : e.source? <;> simp [lastSource?, h]

/-! ## What waits is not looked at -/

theorem record_pending (s : Session) (q : Option Program) :
    ({ s with pending := q } : Session).record = { s.record with pending := q } := by
  unfold record
  split <;> rfl

theorem tick_pending (s : Session) (now : Nat) (q : Option Program) :
    ({ s with pending := q } : Session).tick now = { s.tick now with pending := q } :=
  tick_comm (f := fun s => { s with pending := q }) (fun _ => rfl) (fun _ => rfl) (fun _ _ => rfl) (fun _ _ => rfl)
    (fun s now n => (record_pending (s.execute now n) q).symm) s now

/-- In a run under way nothing but a load or a stop has to do with what waits. -/
theorem apply_pending (started : s.isStarted = true) (noStop : e ≠ .stop) (noLoad : e.source? = none)
    (q : Option Program) : ({ s with pending := q } : Session).apply e = { s.apply e with pending := q } := by
  cases e with
  | load source => cases noLoad
  | start =>
    have hq : ({ s with pending := q } : Session).isStarted = true := started
    rw [apply, apply, start_of_isStarted hq, start_of_isStarted started]
  | stop => exact absurd rfl noStop
  | tick now => exact tick_pending s now q
  | attach p => rfl
  | detach id => rfl

/-- What waited before a load is gone after it. -/
theorem load_pending (started : s.isStarted = true) (source : Text) (q : Option Program) :
    ({ s with pending := q } : Session).load source = { s with pending := some (.ofSource source) } :=
  load_of_isStarted (s := { s with pending := q }) started source

/-- A run with loads in it and the same run without them differ in what waits. -/
theorem run_eq_plain (started : s.isStarted = true) (noStop : ∀ e ∈ es, e ≠ .stop) :
    s.run es = { s.run (plain es) with pending := ((lastSource? es).map .ofSource).or s.pending } := by
  induction es using List.reverseRecOn with
  | nil => rfl
  | append_singleton es e ih =>
    have before : ∀ e' ∈ es, e' ≠ .stop := fun e' he' => noStop e' (List.mem_append_left _ he')
    have going : (s.run (plain es)).isStarted = true :=
      isStarted_run started fun e' he' => before e' (List.mem_filter.1 he').1
    rw [run_concat, ih before, plain_concat, lastSource?_concat]
    cases hsource : e.source? with
    | none =>
      rw [if_pos rfl, run_concat, Option.none_or]
      exact apply_pending going (noStop e (by simp)) hsource _
    | some source =>
      obtain rfl : e = .load source := by
        cases e <;> cases hsource
        rfl
      rw [if_neg (by simp), Option.some_or]
      exact load_pending going source _

/-! ## Loads during a run -/

/-- Whatever is loaded during a run, wherever among the other events and however often: the program that runs, its
progress, the board, the line shown, the steps, the time and the history stay what they are without the loads. All
that tells is what waits, and once the run is stopped the sketch loaded last is the program and nothing waits. -/
theorem run_ignores_loads (s : Session) (started : s.isStarted = true) (events : List Event)
    (noStop : ∀ e ∈ events, e ≠ .stop) :
    let edited := s.run events
    let unedited := s.run (plain events)
    (edited.program = unedited.program ∧ edited.progress = unedited.progress ∧ edited.board = unedited.board ∧
      edited.line = unedited.line ∧ edited.steps = unedited.steps ∧ edited.time = unedited.time ∧
      edited.history = unedited.history) ∧
    edited.pending = ((lastSource? events).map .ofSource).or s.pending ∧
    edited.stop.pending = none ∧
    ∀ source, lastSource? events = some source → edited.stop.program = .ofSource source := by
  intro edited unedited
  have h : edited = { unedited with pending := ((lastSource? events).map .ofSource).or s.pending } :=
    run_eq_plain started noStop
  rw [h]
  refine ⟨⟨rfl, rfl, rfl, rfl, rfl, rfl, rfl⟩, rfl, rfl, fun source hs => ?_⟩
  simp [stop, latest, hs]

/-- Two sketches loaded while a third one runs: it goes on writing, and the second of the two is up next. -/
theorem run_ignores_loads_blink :
    let high := "void loop() \x7b\ndigitalWrite(13, HIGH);\n\x7d\n".toList
    let wait := "void loop() \x7b\ndelay(5);\n\x7d\n".toList
    let s := (new {} 1000).run [.load high, .start]
    let events : List Event := [.load [], .tick 50, .load wait, .start, .tick 60]
    s.isStarted = true ∧ (∀ e ∈ events, e ≠ .stop) ∧ plain events = [.tick 50, .start, .tick 60] ∧
      (s.run events).board = (s.run (plain events)).board ∧ (s.run (plain events)).steps = 2 ∧
      (s.run events).stop.program = .ofSource wait := by
  intro high wait s events
  have started : s.isStarted = true := by decide +kernel
  have noStop : ∀ e ∈ events, e ≠ .stop := by decide
  obtain ⟨⟨-, -, board, -⟩, -, -, next⟩ := run_ignores_loads s started events noStop
  exact ⟨started, noStop, rfl, board, by decide +kernel, next wait rfl⟩

/-! ## A stopped session -/

theorem UnderWay.pending {peripherals : Registry} {limit : Nat} {events before during : List Event}
    (h : UnderWay (new peripherals limit) events before during) :
    ((new peripherals limit).run events).pending = (lastSource? during).map .ofSource := by
  rw [h.run_eq, run_eq_plain (isStarted_start _) h.noStop, start_of_idle h.idle]
  simp [(fresh_of_idle h.idle).pending]

/-- A stop, after whatever came before, leaves a new session with the same limit and the same parts in the same
order, all dark. Its program is the one loaded last in the run, if there was a load in it, and else the one there
was. So it goes on as the new session does. -/
theorem stop_eq_new (peripherals : Registry) (limit : Nat) (events : List Event) :
    let s := (new peripherals limit).run events
    let dark : Registry := ⟨s.board.peripherals.bindings.map fun b => { peripheral := b.peripheral, shows := .low }⟩
    ∃ p, (s.isStarted = false ∧ p = s.program ∨
        ∃ before during, UnderWay (new peripherals limit) events before during ∧
          p = ((lastSource? during).map .ofSource).getD s.program) ∧
      s.stop = (new dark limit).loadProgram p ∧
      ∀ later, s.stop.run later = ((new dark limit).loadProgram p).run later := by
  intro s dark
  have hlimit : s.history.limit = limit := run_history_limit _ _
  have hstop : s.stop = (new dark limit).loadProgram s.latest := by
    rw [← hlimit]
    rfl
  refine ⟨s.latest, ?_, hstop, fun later => by rw [hstop]⟩
  rcases idle_or_underWay (s := new peripherals limit) rfl events with idle | ⟨before, during, h⟩
  · exact Or.inl ⟨idle, by simp [latest, (fresh_of_idle idle).pending, s]⟩
  · exact Or.inr ⟨before, during, h, by simp [latest, h.pending, s]⟩

/-- A run that has lit an LED and had two sketches loaded leaves the LED, dark, and the second sketch. -/
theorem stop_eq_new_blink :
    let high := "void loop() \x7b\ndigitalWrite(13, HIGH);\n\x7d\n".toList
    let wait := "void loop() \x7b\ndelay(5);\n\x7d\n".toList
    let led : Peripheral := { id := "led".toList, kind := .redLed, pin := .number 13 }
    let during : List Event := [.tick 50, .load [], .load wait, .tick 60]
    let events : List Event := .load high :: .start :: during
    let s := (new (.ofList [led]) 1000).run events
    s.board.peripherals.bindings = [{ peripheral := led, shows := .high }] ∧ s.history.size = 2 ∧
      s.stop = (new (.ofList [led]) 1000).loadProgram (.ofSource wait) := by
  intro high wait led during events s
  have lit : s.board.peripherals.bindings = [{ peripheral := led, shows := .high }] := by decide +kernel
  have under : UnderWay (new (.ofList [led]) 1000) events [.load high] during := ⟨rfl, by decide +kernel, by decide⟩
  obtain ⟨p, hp, hstop, -⟩ := stop_eq_new (.ofList [led]) 1000 events
  have hp : p = .ofSource wait := by
    rcases hp with ⟨idle, -⟩ | ⟨before, during', h, hp⟩
    · rw [under.isStarted] at idle
      cases idle
    · rw [hp, ← (under.unique h).2]
      rfl
  refine ⟨lit, by decide +kernel, ?_⟩
  rw [hp] at hstop
  refine hstop.trans ?_
  rw [lit]
  rfl

end Breadboard.Session
