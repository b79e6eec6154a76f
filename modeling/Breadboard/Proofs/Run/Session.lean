/-
  Breadboard.Proofs.Run.Session — what each event does to a session.

  `tick_cases` says once all that a tick can do: nothing while no block runs, wait behind a
  closed gate, spin where there is no statement, or run the next statement. Later proofs take
  ticks apart by it and do not open `tick` again.

  A history loses its oldest snapshots and gains the newest (`History.snapshots_record_of_le`), or it
  refuses the newest and stays as it is (`History.record_of_lt`).

  Proved of every session that comes from a new one: while it is idle, nothing is left of an
  earlier run (`fresh_of_idle`); while it is not, there was a last start of the idle session, and
  no stop since (`idle_or_underWay`).
-/

import Mathlib
import Breadboard.Run.Session

namespace Breadboard

/-! ## What is recorded -/

/-- The oldest items go first. -/
theorem Queue.dropUntil_suffix {α : Type} (weight : α → Nat) (room load : Nat) (as : List α) :
    (dropUntil weight room load as).2 <:+ as := by
  induction as generalizing load with
  | nil => exact List.suffix_refl []
  | cons a as ih =>
    by_cases h : load ≤ room
    · rw [dropUntil_of_le h]
    · rw [dropUntil, if_neg h]
      exact (ih _).trans (List.suffix_cons a as)

namespace History

theorem record_of_lt {h : History} {s : Snapshot} (big : h.limit < s.size) : h.record s = h := by
  simp only [record, push, if_pos big]

/-- A snapshot that fits comes behind those that are left when the oldest have made room. -/
theorem snapshots_record_of_le {h : History} {s : Snapshot} (fits : s.size ≤ h.limit) :
    ∃ k, (h.record s).snapshots = h.snapshots.drop k ++ [s] := by
  obtain ⟨h', hp, -, hs⟩ := push_of_le fits
  have hr : h.record s = h' := by simp only [record, hp]
  have hk := Queue.dropUntil_suffix Snapshot.size (h.limit - s.size) h.used h.snapshots
  have hs : h'.snapshots = _ ++ [s] := congrArg Prod.snd hs
  rw [hr, hs]
  exact ⟨_, congrArg (· ++ [s]) (List.suffix_iff_eq_drop.mp hk)⟩

@[simp] theorem record_limit (h : History) (s : Snapshot) : (h.record s).limit = h.limit := by
  by_cases fits : s.size ≤ h.limit
  · obtain ⟨h', hp, hl, -⟩ := push_of_le fits
    simp only [record, hp, hl]
  · rw [record_of_lt (by omega)]

end History

/-! ## Where a run stands -/

namespace Progress

@[simp] theorem passGate_phase (s : Progress) (now : Nat) : (s.passGate now).phase = s.phase := by
  unfold passGate; split <;> rfl

@[simp] theorem passGate_cursor (s : Progress) (now : Nat) : (s.passGate now).cursor = s.cursor := by
  unfold passGate; split <;> rfl

theorem passGate_wakeAt {s : Progress} {now : Nat} (h : s.isGated now = false) : (s.passGate now).wakeAt = none := by
  simp [passGate, h]

theorem exists_passGate (s : Progress) (now : Nat) : ∃ gate, s.passGate now = { s with wakeAt := gate } := by
  unfold passGate
  split
  · exact ⟨s.wakeAt, rfl⟩
  · exact ⟨none, rfl⟩

/-- The next statement depends on the block and the cursor alone. -/
theorem current?_congr {s s' : Progress} (hp : s'.phase = s.phase) (hc : s'.cursor = s.cursor) (p : Program) :
    s'.current? p = s.current? p := by
  simp only [current?, hp, hc]

theorem isRunning_of_current? {s : Progress} {p : Program} {n : Node} (h : s.current? p = some n) :
    s.phase.isRunning = true := by
  unfold current? at h
  unfold Phase.isRunning
  split at h
  · rename_i b hb; rw [hb]; rfl
  · cases h

theorem advance_wakeAt (s : Progress) (p : Program) : (s.advance p).wakeAt = s.wakeAt := by
  unfold advance
  split
  · split
    · rfl
    · split <;> rfl
  · split
    · rfl
    · split <;> rfl
  · rfl
  · rfl

theorem advance_phase_ne_idle {s : Progress} (h : s.phase ≠ .idle) (p : Program) : (s.advance p).phase ≠ .idle := by
  unfold advance
  split
  · split
    · exact h
    · split
      · simp
      · exact h
  · split
    · exact h
    · split <;> exact h
  · exact h
  · exact h

theorem start_phase_ne_idle (s : Progress) (p : Program) : (s.start p).phase ≠ .idle := by
  unfold start
  split
  · assumption
  · split
    · simp
    · split <;> simp

end Progress

namespace Session

/-! ## Steps and runs -/

theorem run_append (s : Session) (es es' : List Event) : s.run (es ++ es') = (s.run es).run es' :=
  List.foldl_append

theorem run_concat (s : Session) (es : List Event) (e : Event) : s.run (es ++ [e]) = (s.run es).apply e := by
  rw [run_append]; rfl

/-- A run keeps what each of its events keeps. -/
theorem run_induction {motive : Session → Prop} {s : Session} {es : List Event} (start : motive s)
    (step : ∀ t, ∀ e ∈ es, motive t → motive (t.apply e)) : motive (s.run es) := by
  induction es generalizing s with
  | nil => exact start
  | cons e es ih =>
    exact ih (step s e (List.mem_cons_self ..) start) fun t e' he => step t e' (List.mem_cons_of_mem e he)

theorem isStarted_iff (s : Session) : s.isStarted = true ↔ s.progress.phase ≠ .idle := by
  simp [isStarted]

@[simp] theorem record_program (s : Session) : s.record.program = s.program := by unfold record; split <;> rfl
@[simp] theorem record_progress (s : Session) : s.record.progress = s.progress := by unfold record; split <;> rfl
@[simp] theorem record_board (s : Session) : s.record.board = s.board := by unfold record; split <;> rfl
@[simp] theorem record_line (s : Session) : s.record.line = s.line := by unfold record; split <;> rfl
@[simp] theorem record_steps (s : Session) : s.record.steps = s.steps := by unfold record; split <;> rfl
@[simp] theorem record_snapshot (s : Session) : s.record.snapshot = s.snapshot := by unfold record; split <;> rfl

/-- A snapshot is never empty, so that a history without room would refuse it as well. -/
theorem record_history (s : Session) : s.record.history = s.history.record s.snapshot := by
  unfold record
  split
  · rename_i h0
    have : s.history.limit < s.snapshot.size := by
      rw [h0]; unfold Snapshot.size; omega
    rw [History.record_of_lt this]
  · rfl

/-- After recording there are snapshots from before and perhaps one of the session as it is. -/
theorem mem_record_snapshots {s : Session} {x : Snapshot} (h : x ∈ s.record.history.snapshots) :
    x ∈ s.history.snapshots ∨ x = s.snapshot := by
  rw [record_history] at h
  by_cases fits : s.snapshot.size ≤ s.history.limit
  · obtain ⟨k, hk⟩ := History.snapshots_record_of_le fits
    rw [hk] at h
    rcases List.mem_append.1 h with h | h
    · exact Or.inl (List.mem_of_mem_drop h)
    · exact Or.inr (List.mem_singleton.1 h)
  · rw [History.record_of_lt (by omega)] at h
    exact Or.inl h

/-- The session when a tick has found its gate open. -/
def ungated (s : Session) (now : Nat) : Session :=
  { s with time := now, progress := s.progress.passGate now }

theorem ungated_next? (s : Session) (now : Nat) : (s.ungated now).next? = s.next? :=
  Progress.current?_congr (Progress.passGate_phase _ _) (Progress.passGate_cursor _ _) _

theorem tick_of_open {s : Session} {now : Nat} (hr : s.progress.phase.isRunning = true)
    (hg : s.progress.isGated now = false) :
    s.tick now =
      match s.next? with
      | some n => ((s.ungated now).execute now n).record
      | none => s.ungated now := by
  rw [← ungated_next? s now]
  unfold tick
  rw [hr, hg]
  rfl

/-- All that a tick can do. -/
theorem tick_cases (s : Session) (now : Nat) :
    (s.progress.phase.isRunning = false ∧ s.next? = none ∧ s.tick now = s) ∨
    (s.progress.phase.isRunning = true ∧ s.progress.isGated now = true ∧ s.tick now = { s with time := now }) ∨
    (s.progress.phase.isRunning = true ∧ s.progress.isGated now = false ∧ s.next? = none ∧
      s.tick now = s.ungated now) ∨
    ∃ n, s.progress.isGated now = false ∧ s.next? = some n ∧
      s.tick now = ((s.ungated now).execute now n).record := by
  by_cases hr : s.progress.phase.isRunning = true
  · right
    by_cases hg : s.progress.isGated now = true
    · exact Or.inl ⟨hr, hg, by simp [tick, hr, hg]⟩
    · right
      have hg : s.progress.isGated now = false := by simpa using hg
      have ht := tick_of_open hr hg
      cases hn : s.next? with
      | none => rw [hn] at ht; exact Or.inl ⟨hr, hg, rfl, ht⟩
      | some n => rw [hn] at ht; exact Or.inr ⟨n, hg, rfl, ht⟩
  · have hr : s.progress.phase.isRunning = false := by simpa using hr
    refine Or.inl ⟨hr, ?_, by simp [tick, hr]⟩
    cases hn : s.next? with
    | none => rfl
    | some n => rw [Progress.isRunning_of_current? hn] at hr; cases hr

/-- What a tick does not look at may be changed before it or after it, if a step does not mind either. -/
theorem tick_comm {f : Session → Session} (program : ∀ s, (f s).program = s.program)
    (progress : ∀ s, (f s).progress = s.progress)
    (waits : ∀ s now, f { s with time := now } = { f s with time := now })
    (opens : ∀ s now, f (s.ungated now) = (f s).ungated now)
    (step : ∀ s now n, f (s.execute now n).record = ((f s).execute now n).record) (s : Session) (now : Nat) :
    (f s).tick now = f (s.tick now) := by
  have hn : (f s).next? = s.next? := by rw [next?, next?, program, progress]
  by_cases hr : s.progress.phase.isRunning = true
  · have hr' : (f s).progress.phase.isRunning = true := by rwa [progress]
    by_cases hg : s.progress.isGated now = true
    · have hg' : (f s).progress.isGated now = true := by rwa [progress]
      simpa [tick, hr, hg, hr', hg'] using (waits s now).symm
    · have hg : s.progress.isGated now = false := by simpa using hg
      have hg' : (f s).progress.isGated now = false := by rwa [progress]
      rw [tick_of_open hr' hg', tick_of_open hr hg, hn]
      cases s.next? with
      | none => exact (opens s now).symm
      | some n =>
        show (((f s).ungated now).execute now n).record = f ((s.ungated now).execute now n).record
        rw [step, opens]
  · have hr' : ¬ (f s).progress.phase.isRunning = true := by rwa [progress]
    simp [tick, hr, hr']

theorem tick_steps_le (s : Session) (now : Nat) : (s.tick now).steps ≤ s.steps + 1 := by
  rcases tick_cases s now with ⟨_, _, h⟩ | ⟨_, _, h⟩ | ⟨_, _, _, h⟩ | ⟨n, _, _, h⟩ <;> rw [h]
  · exact Nat.le_succ _
  · exact Nat.le_succ _
  · exact Nat.le_succ _
  · simp [execute, ungated]

theorem execute_phase_ne_idle {s : Session} (h : s.progress.phase ≠ .idle) (now : Nat) (n : Node) :
    (s.execute now n).progress.phase ≠ .idle := by
  unfold execute
  apply Progress.advance_phase_ne_idle
  split <;> exact h

theorem tick_phase_ne_idle {s : Session} (h : s.progress.phase ≠ .idle) (now : Nat) :
    (s.tick now).progress.phase ≠ .idle := by
  rcases tick_cases s now with ⟨_, _, e⟩ | ⟨_, _, e⟩ | ⟨_, _, _, e⟩ | ⟨n, _, _, e⟩ <;> rw [e]
  · exact h
  · exact h
  · simpa [ungated] using h
  · rw [record_progress]
    exact execute_phase_ne_idle (by simpa [ungated] using h) _ _

/-- Of the gates a statement leaves behind, its own comes before the one that was there. -/
theorem execute_wakeAt (s : Session) (now : Nat) (n : Node) :
    (s.execute now n).progress.wakeAt = (n.statement.pause?.map (wakeTime now)).or s.progress.wakeAt := by
  simp only [execute, Progress.advance_wakeAt]
  cases n.statement.pause? <;> rfl

/-- Once the gate is open, only the statement that runs can close one. -/
theorem ungated_execute_wakeAt {s : Session} {now : Nat} (opened : s.progress.isGated now = false) (n : Node) :
    ((s.ungated now).execute now n).progress.wakeAt = n.statement.pause?.map (wakeTime now) := by
  have hw : (s.ungated now).progress.wakeAt = none := Progress.passGate_wakeAt opened
  rw [execute_wakeAt, hw, Option.or_none]

/-- During a run a sketch that is loaded has to wait. -/
theorem load_of_isStarted {s : Session} (h : s.isStarted = true) (source : Text) :
    s.load source = { s with pending := some (.ofSource source) } := by
  simp only [load, loadProgram, h, if_true]

theorem start_of_isStarted {s : Session} (h : s.isStarted = true) : s.start = s := by
  simp only [start, h, if_true]

theorem start_of_idle {s : Session} (h : s.isStarted = false) :
    s.start = { s with progress := s.progress.start s.program, line := none, steps := 0, time := 0 } := by
  simp only [start, h, Bool.false_eq_true, if_false]

theorem load_of_idle {s : Session} (h : s.isStarted = false) (source : Text) :
    s.load source = { s with program := .ofSource source } := by
  simp only [load, loadProgram, h, Bool.false_eq_true, if_false]

/-- A session that has been started stays so until it is stopped. -/
theorem isStarted_apply {s : Session} {e : Event} (h : s.isStarted = true) (he : e ≠ .stop) :
    (s.apply e).isStarted = true := by
  cases e with
  | load source => rw [apply, load_of_isStarted h]; exact h
  | start => rw [apply, start_of_isStarted h]; exact h
  | stop => exact absurd rfl he
  | tick now => rw [isStarted_iff] at *; exact tick_phase_ne_idle h now
  | attach p => exact h
  | detach id => exact h

theorem tick_of_idle {s : Session} (h : s.isStarted = false) (now : Nat) : s.tick now = s := by
  have idle : s.progress.phase = .idle := by simpa [isStarted] using h
  have hr : s.progress.phase.isRunning = false := by rw [idle]; rfl
  simp [tick, hr]

/-- An idle session stays so until it is started. -/
theorem not_isStarted_apply {s : Session} {e : Event} (h : s.isStarted = false) (he : e ≠ .start) :
    (s.apply e).isStarted = false := by
  cases e with
  | load source => rw [apply, load_of_idle h]; exact h
  | start => exact absurd rfl he
  | stop => rfl
  | tick now => rw [apply, tick_of_idle h]; exact h
  | attach p => exact h
  | detach id => exact h

theorem isStarted_start (s : Session) : s.start.isStarted = true := by
  unfold start
  split
  · assumption
  · exact (isStarted_iff _).mpr (Progress.start_phase_ne_idle _ _)

theorem isStarted_run {s : Session} {es : List Event} (h : s.isStarted = true) (noStop : ∀ e ∈ es, e ≠ .stop) :
    (s.run es).isStarted = true :=
  run_induction (motive := fun t => t.isStarted = true) h fun _ e he ht => isStarted_apply ht (noStop e he)

/-! ## Idle sessions -/

/-- Nothing is left of an earlier run but the program and the parts. -/
structure Fresh (s : Session) : Prop where
  pending : s.pending = none
  progress : s.progress = {}
  pins : s.board.pins = {}
  serial : s.board.serial = .empty
  line : s.line = none
  steps : s.steps = 0
  time : s.time = 0
  history : s.history = { limit := s.history.limit }

theorem Fresh.isStarted {s : Session} (f : Fresh s) : s.isStarted = false := by
  simp [Session.isStarted, f.progress]

theorem fresh_new (peripherals : Registry) (limit : Nat) : Fresh (new peripherals limit) :=
  ⟨rfl, rfl, rfl, rfl, rfl, rfl, rfl, rfl⟩

theorem fresh_loadProgram {s : Session} (f : Fresh s) (p : Program) : Fresh (s.loadProgram p) := by
  simp only [loadProgram, f.isStarted, Bool.false_eq_true, if_false]
  exact ⟨f.pending, f.progress, f.pins, f.serial, f.line, f.steps, f.time, f.history⟩

theorem fresh_stop (s : Session) : Fresh s.stop := ⟨rfl, rfl, rfl, rfl, rfl, rfl, rfl, rfl⟩

/-- An event that leaves the session idle, or finds it idle and is no start, leaves it fresh. -/
theorem fresh_apply {s : Session} (h : s.isStarted = false → Fresh s) (e : Event)
    (idle : (s.apply e).isStarted = false) : Fresh (s.apply e) := by
  by_cases he : e = .stop
  · subst he; exact fresh_stop s
  cases hs : s.isStarted with
  | true => rw [isStarted_apply hs he] at idle; cases idle
  | false =>
    have f := h hs
    cases e with
    | load source => exact fresh_loadProgram f _
    | start => rw [apply, isStarted_start] at idle; cases idle
    | stop => exact absurd rfl he
    | tick now => rw [apply, tick_of_idle hs]; exact f
    | attach p => exact ⟨f.pending, f.progress, f.pins, f.serial, f.line, f.steps, f.time, f.history⟩
    | detach id => exact ⟨f.pending, f.progress, f.pins, f.serial, f.line, f.steps, f.time, f.history⟩

theorem fresh_of_idle {peripherals : Registry} {limit : Nat} {es : List Event}
    (idle : ((new peripherals limit).run es).isStarted = false) : Fresh ((new peripherals limit).run es) :=
  run_induction (motive := fun s => s.isStarted = false → Fresh s) (fun _ => fresh_new peripherals limit)
    (fun _ e _ h => fresh_apply h e) idle

/-! ## The run under way -/

/-- How the run under way came about: after the first events the session was idle, then it was started, and it was
not stopped since. -/
structure UnderWay (s : Session) (events before during : List Event) : Prop where
  split : events = before ++ .start :: during
  idle : (s.run before).isStarted = false
  noStop : ∀ e ∈ during, e ≠ .stop

variable {s : Session} {events before during : List Event}

theorem UnderWay.run_eq (h : UnderWay s events before during) : s.run events = (s.run before).start.run during := by
  rw [h.split, run_append]
  rfl

theorem UnderWay.isStarted (h : UnderWay s events before during) : (s.run events).isStarted = true := by
  rw [h.run_eq]
  exact isStarted_run (isStarted_start _) h.noStop

theorem UnderWay.concat (h : UnderWay s events before during) {e : Event} (he : e ≠ .stop) :
    UnderWay s (events ++ [e]) before (during ++ [e]) := by
  refine ⟨by simp [h.split], h.idle, fun e' he' => ?_⟩
  rcases List.mem_append.1 he' with he' | he'
  · exact h.noStop e' he'
  · rw [List.mem_singleton.1 he']; exact he

/-- The start of a run comes behind no other, which would have left the session started. -/
theorem UnderWay.eq_nil_of_append {es during' : List Event} (h : UnderWay s events before during)
    (h' : UnderWay s events (before ++ es) during') : es = [] := by
  cases es with
  | nil => rfl
  | cons e es =>
    have hd : .start :: during = e :: es ++ .start :: during' := by
      rw [← List.append_cancel_left_eq before, ← h.split, ← List.append_assoc, h'.split]
    obtain ⟨rfl, htail⟩ := List.cons.inj hd
    have started : ((s.run before).start.run es).isStarted = true :=
      isStarted_run (isStarted_start _) fun e he => h.noStop e (htail ▸ List.mem_append_left _ he)
    have idle : ((s.run before).start.run es).isStarted = false := by
      have := h'.idle
      rwa [run_append] at this
    rw [idle] at started
    cases started

theorem UnderWay.unique {before' during' : List Event} (h : UnderWay s events before during)
    (h' : UnderWay s events before' during') : before = before' ∧ during = during' := by
  have hsplit : before ++ .start :: during = before' ++ .start :: during' := by rw [← h.split, h'.split]
  have hbefore : before = before' := by
    rcases List.append_eq_append_iff.1 hsplit with ⟨es, hes, -⟩ | ⟨es, hes, -⟩
    · subst hes
      rw [h.eq_nil_of_append h', List.append_nil]
    · subst hes
      rw [h'.eq_nil_of_append h, List.append_nil]
  subst hbefore
  exact ⟨rfl, (List.cons.inj (List.append_cancel_left hsplit)).2⟩

/-- A session that was idle once is idle, or a run is under way. -/
theorem idle_or_underWay (idle : s.isStarted = false) (events : List Event) :
    (s.run events).isStarted = false ∨ ∃ before during, UnderWay s events before during := by
  induction events using List.reverseRecOn with
  | nil => exact Or.inl idle
  | append_singleton es e ih =>
    rw [run_concat]
    by_cases hstop : e = .stop
    · subst hstop; exact Or.inl rfl
    rcases ih with hidle | ⟨before, during, h⟩
    · by_cases hstart : e = .start
      · subst hstart
        exact Or.inr ⟨es, [], rfl, hidle, fun _ he => absurd he List.not_mem_nil⟩
      · exact Or.inl (not_isStarted_apply hidle hstart)
    · exact Or.inr ⟨before, during ++ [e], h.concat hstop⟩

/-! ## The limit of the history -/

@[simp] theorem record_history_limit (s : Session) : s.record.history.limit = s.history.limit := by
  rw [record_history, History.record_limit]

/-- How much is recorded is settled when the session is made. -/
theorem apply_history_limit (s : Session) (e : Event) : (s.apply e).history.limit = s.history.limit := by
  cases e with
  | load source => simp only [apply, load, loadProgram]; split <;> rfl
  | start => simp only [apply, start]; split <;> rfl
  | stop => rfl
  | tick now =>
    show (s.tick now).history.limit = _
    rcases tick_cases s now with ⟨_, _, h⟩ | ⟨_, _, h⟩ | ⟨_, _, _, h⟩ | ⟨n, _, _, h⟩ <;> rw [h]
    · rfl
    · rw [record_history_limit]; rfl
  | attach p => rfl
  | detach id => rfl

theorem run_history_limit (s : Session) (es : List Event) : (s.run es).history.limit = s.history.limit :=
  run_induction (motive := fun t => t.history.limit = s.history.limit) rfl
    fun t e _ ht => (apply_history_limit t e).trans ht

end Session

end Breadboard
