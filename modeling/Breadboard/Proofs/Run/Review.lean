/-
  Breadboard.Proofs.Run.Review — the recorded steps are those that happened.

  `Session.moments` lists the session as it stood directly after each statement of a run. What
  is recorded of a moment is a snapshot, and of the log in it only a mark. `Recalls` ties the
  two together: the snapshots are those of some of the moments, in their order, the log taken
  back to the mark of any moment is the log of that moment, and the last moment is recorded if
  it fits. `Unbroken` says more of a run from which nothing is detached: there a snapshot never
  weighs less than the one before, so that what does not fit is followed only by what does not
  fit either, and the moments recorded follow one another without a gap.

  Proved: both are kept by every event short of a stop (`Recalls.apply`, `Unbroken.apply`), and
  from that what the history of every session tells (`history_tells_moments`).
-/

import Breadboard.Proofs.Run.Trace

namespace Breadboard

/-! ## Logs -/

namespace SerialLog

theorem atMark_mark (l : SerialLog) : l.atMark l.mark = l := by
  cases l
  simp [atMark, mark]

theorem atMark_begin {l k : SerialLog} (h : l.atMark k.mark = k) (baud : Nat) :
    (l.begin baud).atMark k.mark = k := h

/-- A print comes behind every mark that was set before it. -/
theorem atMark_append {l k : SerialLog} (h : l.atMark k.mark = k) (e : SerialEntry) :
    (l.append e).atMark k.mark = k := by
  have hk : k.size ≤ l.size := by
    have : min k.size l.size = k.size := congrArg SerialLog.size h
    omega
  have hd : l.size + 1 - k.size = l.size - k.size + 1 := by omega
  calc (l.append e).atMark k.mark = l.atMark k.mark := by
        simp only [atMark, append, mark, hd, List.drop_succ_cons, mk.injEq, and_true, true_and]
        omega
    _ = k := h

end SerialLog

theorem Board.atMark_execute {b : Board} {k : SerialLog} (h : b.serial.atMark k.mark = k) (now : Nat)
    (st : Statement) : (b.execute now st).serial.atMark k.mark = k := by
  cases st with
  | mode pin m => exact h
  | write pin l => exact h
  | delay d => exact h
  | begin baud => exact SerialLog.atMark_begin h baud
  | print text newline => exact SerialLog.atMark_append h _
  | unrecognized => exact h

/-! ## Weights -/

theorem PinTable.size_le_update (t : PinTable) (p : PinId) (f : Pin → Pin) : t.size ≤ (t.update p f).size := by
  suffices h : ∀ l : List (PinId × Pin), l.length ≤ (updateIn p f l).length from h t.entries
  intro l
  induction l with
  | nil => exact Nat.zero_le _
  | cons e l ih =>
    obtain ⟨q, a⟩ := e
    unfold updateIn
    split
    · exact Nat.le_refl _
    · exact Nat.succ_le_succ ih

namespace Registry

@[simp] theorem size_sync (r : Registry) (pin : PinId) (l : Level) : (r.sync pin l).size = r.size :=
  List.length_map _

/-- A part takes at most the place of one other. -/
theorem size_le_add (r : Registry) (p : Peripheral) : r.size ≤ (r.add p).size := by
  have hl : (r.remove p.id).bindings.length = if r.bindings.any (·.peripheral.id = p.id) then _ else _ :=
    List.length_eraseP
  simp only [size, add, List.length_append, List.length_singleton]
  split at hl <;> omega

end Registry

/-- A statement takes no pin and no part off the board. -/
theorem Board.size_le_execute (b : Board) (now : Nat) (st : Statement) :
    b.pins.size ≤ (b.execute now st).pins.size ∧ b.peripherals.size ≤ (b.execute now st).peripherals.size := by
  cases st with
  | mode pin m => exact ⟨PinTable.size_le_update _ _ _, Nat.le_refl _⟩
  | write pin l => exact ⟨PinTable.size_le_update _ _ _, Nat.le_of_eq (Registry.size_sync _ _ _).symm⟩
  | delay d => exact ⟨Nat.le_refl _, Nat.le_refl _⟩
  | begin baud => exact ⟨Nat.le_refl _, Nat.le_refl _⟩
  | print text newline => exact ⟨Nat.le_refl _, Nat.le_refl _⟩
  | unrecognized => exact ⟨Nat.le_refl _, Nat.le_refl _⟩

namespace History

theorem length_snapshots (h : History) : h.snapshots.length = h.size := Queue.length_toList _

theorem mem_of_fromNewest? {h : History} {back : Nat} {x : Snapshot} (hx : h.fromNewest? back = some x) :
    x ∈ h.snapshots := List.mem_reverse.1 (List.mem_of_getElem? hx)

theorem exists_fromNewest? {h : History} {back : Nat} (hb : back < h.size) : ∃ x, h.fromNewest? back = some x := by
  rw [← length_snapshots, ← List.length_reverse] at hb
  exact ⟨_, List.getElem?_eq_getElem hb⟩

theorem fromNewest?_zero (h : History) : h.fromNewest? 0 = h.snapshots.getLast? := by
  rw [← List.head?_reverse, List.head?_eq_getElem?]
  rfl

end History

namespace Session

/-! ## Moments -/

/-- The session directly after an event that runs a statement. -/
def moment? (s : Session) (e : Event) : Option Session := (s.executed? e).map fun _ => s.apply e

/-- The session directly after each statement that the events run. -/
def moments (s : Session) : List Event → List Session
  | [] => []
  | e :: es => (s.moment? e).toList ++ (s.apply e).moments es

variable {s m : Session} {e : Event} {es : List Event} {past : List Session}

/-- What holds of a session and the moments behind it goes on to hold as long as each event keeps it. -/
theorem moments_induction {motive : Session → List Session → Prop} (started : s.isStarted = true)
    (noStop : ∀ e ∈ es, e ≠ .stop) (start : motive s past)
    (step : ∀ t past, ∀ e ∈ es, t.isStarted = true → motive t past →
      motive (t.apply e) (past ++ (t.moment? e).toList)) :
    motive (s.run es) (past ++ s.moments es) := by
  induction es generalizing s past with
  | nil => simpa [moments, run] using start
  | cons e es ih =>
    rw [List.forall_mem_cons] at noStop
    have := ih (isStarted_apply started noStop.1) noStop.2 (step s past e (List.mem_cons_self ..) started start)
      fun t past e' he => step t past e' (List.mem_cons_of_mem _ he)
    simpa [moments, run] using this

/-- In a run under way an event runs nothing, and then it leaves the steps, the log and the history alone, or it is
the tick of a statement, which is one step more and which the history is offered. -/
theorem apply_cases (started : s.isStarted = true) (noStop : e ≠ .stop) :
    (s.moment? e = none ∧ (s.apply e).steps = s.steps ∧ (s.apply e).board.serial = s.board.serial ∧
      (s.apply e).history = s.history) ∨
    (s.moment? e = some (s.apply e) ∧ (s.apply e).steps = s.steps + 1 ∧
      (∃ now st, (s.apply e).board = s.board.execute now st) ∧
      (s.apply e).history = s.history.record (s.apply e).snapshot) := by
  cases e with
  | load source =>
    rw [apply, load_of_isStarted started]
    exact Or.inl ⟨rfl, rfl, rfl, rfl⟩
  | start =>
    rw [apply, start_of_isStarted started]
    exact Or.inl ⟨rfl, rfl, rfl, rfl⟩
  | stop => exact absurd rfl noStop
  | tick now =>
    simp only [apply, moment?]
    rcases executed?_cases s now with ⟨hx, time, gate, h⟩ | ⟨n, hx, hn, h⟩
    · rw [hx, h]
      exact Or.inl ⟨rfl, rfl, rfl, rfl⟩
    · rw [hx, h, record_steps, record_board, record_snapshot, record_history]
      exact Or.inr ⟨rfl, rfl, ⟨now, n.statement, rfl⟩, rfl⟩
  | attach p => exact Or.inl ⟨rfl, rfl, rfl, rfl⟩
  | detach id => exact Or.inl ⟨rfl, rfl, rfl, rfl⟩

theorem start_of_fresh (fresh : Fresh s) : s.start.steps = 0 ∧ s.start.history.snapshots = [] := by
  rw [start_of_idle fresh.isStarted]
  exact ⟨rfl, by rw [fresh.history]; rfl⟩

/-! ## What the history holds -/

/-- The history and the moments of the run so far. -/
structure Recalls (s : Session) (past : List Session) : Prop where
  /-- The moments are those after one, two, three statements and so on. -/
  steps : past.map (·.steps) = List.range' 1 s.steps
  logs : ∀ m ∈ past, s.board.serial.atMark m.board.serial.mark = m.board.serial
  recorded : ∃ ms : List Session, ms.Sublist past ∧ s.history.snapshots = ms.map snapshot
  newest : ∀ m, past.getLast? = some m → m.snapshot.size ≤ s.history.limit →
    s.history.snapshots.getLast? = some m.snapshot

namespace Recalls

theorem of_start (fresh : Fresh s) : Recalls s.start [] := by
  obtain ⟨hs, hh⟩ := start_of_fresh fresh
  exact ⟨by rw [hs]; rfl, fun _ hm => absurd hm List.not_mem_nil, ⟨[], List.Sublist.refl [], hh⟩,
    fun _ hm => by cases hm⟩

/-- One moment more. -/
theorem next (h : Recalls s past) (hs : m.steps = s.steps + 1)
    (hb : ∃ now st, m.board = s.board.execute now st) (hh : m.history = s.history.record m.snapshot) :
    Recalls m (past ++ [m]) := by
  obtain ⟨now, st, hb⟩ := hb
  obtain ⟨ms, hsub, hms⟩ := h.recorded
  have fit : m.snapshot.size ≤ s.history.limit →
      ∃ k, m.history.snapshots = (ms.drop k ++ [m]).map snapshot := by
    intro fits
    obtain ⟨k, hk⟩ := History.snapshots_record_of_le fits
    exact ⟨k, by rw [hh, hk, hms]; simp⟩
  refine ⟨?_, ?_, ?_, ?_⟩
  · simp [h.steps, hs, List.range'_1_concat, Nat.add_comm]
  · intro k hk
    rcases List.mem_append.1 hk with hk | hk
    · rw [hb]
      exact Board.atMark_execute (h.logs k hk) now st
    · rw [List.mem_singleton.1 hk]
      exact SerialLog.atMark_mark _
  · by_cases fits : m.snapshot.size ≤ s.history.limit
    · obtain ⟨k, hk⟩ := fit fits
      exact ⟨_, ((List.drop_sublist k ms).trans hsub).append_right [m], hk⟩
    · refine ⟨ms, hsub.trans (List.sublist_append_left past [m]), ?_⟩
      rw [hh, History.record_of_lt (by omega), hms]
  · intro k hk fits
    obtain rfl : m = k := by simpa using hk
    rw [hh, History.record_limit] at fits
    obtain ⟨k, hk⟩ := fit fits
    simp [hk]

theorem apply (h : Recalls s past) (started : s.isStarted = true) (noStop : e ≠ .stop) :
    Recalls (s.apply e) (past ++ (s.moment? e).toList) := by
  rcases apply_cases started noStop with ⟨hm, hs, hl, hh⟩ | ⟨hm, hs, hb, hh⟩
  · rw [hm, Option.toList_none, List.append_nil]
    refine ⟨by rw [hs]; exact h.steps, by rw [hl]; exact h.logs, by rw [hh]; exact h.recorded, ?_⟩
    rw [hh]
    exact h.newest
  · rw [hm]
    exact h.next hs hb hh

/-- A moment stands at the place that its count of steps says. -/
theorem getElem?_steps (h : Recalls s past) (hm : m ∈ past) : 1 ≤ m.steps ∧ past[m.steps - 1]? = some m := by
  obtain ⟨k, hk⟩ := List.mem_iff_getElem?.1 hm
  have hs : (past.map (·.steps))[k]? = some m.steps := by rw [List.getElem?_map, hk]; rfl
  have hlt : k < s.steps := by
    have := (List.getElem?_eq_some_iff.1 hs).1
    simpa [h.steps] using this
  rw [h.steps, List.getElem?_range' hlt, Option.some.injEq] at hs
  have : m.steps - 1 = k := by omega
  exact ⟨by omega, by rw [this]; exact hk⟩

theorem increasing (h : Recalls s past) : (s.history.snapshots.map (·.steps)).Pairwise (· < ·) := by
  obtain ⟨ms, hsub, hms⟩ := h.recorded
  have hsub : (ms.map (·.steps)).Sublist (List.range' 1 s.steps) := h.steps ▸ hsub.map _
  rw [hms, List.map_map]
  exact (List.pairwise_lt_range' ..).sublist hsub

end Recalls

/-! ## Runs without gaps -/

/-- The moments recorded follow one another. If they do not reach to the last one, then there is no room for a
snapshot of the session as it is now. -/
def Unbroken (s : Session) (past : List Session) : Prop :=
  ∃ ms, s.history.snapshots = ms.map snapshot ∧
    (ms <:+ past ∨ ms <:+: past ∧ s.history.limit < s.snapshot.size)

/-- What a snapshot of the session weighs falls only when a part is detached. -/
theorem snapshot_size_le_apply (started : s.isStarted = true) (noStop : e ≠ .stop)
    (noDetach : ∀ id, e ≠ .detach id) : s.snapshot.size ≤ (s.apply e).snapshot.size := by
  suffices h : s.board.pins.size ≤ (s.apply e).board.pins.size ∧
      s.board.peripherals.size ≤ (s.apply e).board.peripherals.size by
    simp only [Snapshot.size, snapshot]
    omega
  cases e with
  | load source => rw [apply, load_of_isStarted started]; exact ⟨Nat.le_refl _, Nat.le_refl _⟩
  | start => rw [apply, start_of_isStarted started]; exact ⟨Nat.le_refl _, Nat.le_refl _⟩
  | stop => exact absurd rfl noStop
  | tick now =>
    show _ ≤ (s.tick now).board.pins.size ∧ _ ≤ (s.tick now).board.peripherals.size
    rcases tick_cases s now with ⟨_, _, h⟩ | ⟨_, _, h⟩ | ⟨_, _, _, h⟩ | ⟨n, _, _, h⟩ <;> rw [h]
    · exact ⟨Nat.le_refl _, Nat.le_refl _⟩
    · exact ⟨Nat.le_refl _, Nat.le_refl _⟩
    · exact ⟨Nat.le_refl _, Nat.le_refl _⟩
    · rw [record_board]
      exact Board.size_le_execute s.board now n.statement
  | attach p =>
    refine ⟨Nat.le_refl _, ?_⟩
    simp only [apply, attach, Board.attach, Registry.size_sync]
    exact Registry.size_le_add _ _
  | detach id => exact absurd rfl (noDetach id)

theorem Unbroken.of_start (fresh : Fresh s) : Unbroken s.start [] :=
  ⟨[], (start_of_fresh fresh).2, Or.inl (List.suffix_refl [])⟩

theorem Unbroken.apply (h : Unbroken s past) (started : s.isStarted = true) (noStop : e ≠ .stop)
    (noDetach : ∀ id, e ≠ .detach id) : Unbroken (s.apply e) (past ++ (s.moment? e).toList) := by
  obtain ⟨ms, hms, hplace⟩ := h
  have grows := snapshot_size_le_apply started noStop noDetach
  rcases apply_cases started noStop with ⟨hm, -, -, hh⟩ | ⟨hm, -, -, hh⟩
  · rw [hm, Option.toList_none, List.append_nil]
    refine ⟨ms, by rw [hh]; exact hms, hplace.imp_right fun hin => ⟨hin.1, ?_⟩⟩
    rw [hh]
    omega
  · rw [hm, Option.toList_some]
    by_cases fits : (s.apply e).snapshot.size ≤ s.history.limit
    · -- What fits now did so before, so the moments recorded reach to the last.
      have hsuf : ms <:+ past := hplace.resolve_right fun hin => by omega
      obtain ⟨k, hk⟩ := History.snapshots_record_of_le fits
      refine ⟨ms.drop k ++ [s.apply e], by rw [hh, hk, hms]; simp, Or.inl ?_⟩
      exact List.suffix_append_self_iff.2 ((List.drop_suffix k ms).trans hsuf)
    · refine ⟨ms, by rw [hh, History.record_of_lt (by omega)]; exact hms, Or.inr ⟨?_, ?_⟩⟩
      · exact (hplace.elim List.IsSuffix.isInfix And.left).trans (List.prefix_append ..).isInfix
      · rw [hh, History.record_limit]
        omega

theorem Unbroken.infix (h : Unbroken s past) :
    ∃ ms, ms <:+: past ∧ s.history.snapshots = ms.map snapshot := by
  obtain ⟨ms, hms, hplace⟩ := h
  exact ⟨ms, hplace.elim List.IsSuffix.isInfix And.left, hms⟩

/-- Moments that follow one another are so many steps one after the other. -/
theorem Recalls.consecutive (h : Recalls s past) (whole : Unbroken s past) :
    ∃ first, s.history.snapshots.map (·.steps) = List.range' first s.history.size := by
  obtain ⟨ms, ⟨as, bs, hsplit⟩, hms⟩ := whole.infix
  have hsteps : (as ++ ms).map (·.steps) ++ bs.map (·.steps) = List.range' 1 s.steps := by
    rw [← List.map_append, hsplit, h.steps]
  obtain ⟨k, -, hk, -⟩ := List.range'_eq_append_iff.1 hsteps.symm
  rw [List.map_append] at hk
  obtain ⟨j, -, -, hj⟩ := List.range'_eq_append_iff.1 hk.symm
  have hsize : s.history.size = k - j := by
    rw [← History.length_snapshots, hms, List.length_map, ← List.length_map (·.steps), hj, List.length_range']
  exact ⟨_, by rw [hms, List.map_map, hsize]; exact hj⟩

/-- What the history of a session tells is what happened. An idle session has none. In a run under way a snapshot
any number of steps behind the newest is the one that was taken directly after the statement that its count of steps
names, and the log taken back to its mark is the log of that moment; the counts rise from the oldest to the newest;
the newest is that of the last statement if there is room for it; and if nothing was detached in the run, the counts
follow one another without a gap. -/
theorem history_tells_moments (peripherals : Registry) (limit : Nat) (events : List Event) :
    let s := (new peripherals limit).run events
    (s.isStarted = false ∧ s.history.size = 0 ∨
      ∃ before during, UnderWay (new peripherals limit) events before during) ∧
    ∀ before during, UnderWay (new peripherals limit) events before during →
      let past := ((new peripherals limit).run before).start.moments during
      (∀ back < s.history.size, ∃ x m, s.history.fromNewest? back = some x ∧ 1 ≤ x.steps ∧
        past[x.steps - 1]? = some m ∧ x = m.snapshot ∧ s.board.serial.atMark x.serial = m.board.serial) ∧
      (s.history.snapshots.map (·.steps)).Pairwise (· < ·) ∧
      (∀ m, past.getLast? = some m → m.snapshot.size ≤ limit → s.history.fromNewest? 0 = some m.snapshot) ∧
      ((∀ id, .detach id ∉ during) →
        ∃ first, s.history.snapshots.map (·.steps) = List.range' first s.history.size) := by
  intro s
  constructor
  · refine (idle_or_underWay (s := new peripherals limit) rfl events).imp_left fun idle => ⟨idle, ?_⟩
    rw [show s.history = { limit := s.history.limit } from (fresh_of_idle idle).history]
    rfl
  intro before during h past
  have fresh := fresh_of_idle h.idle
  have started := isStarted_start ((new peripherals limit).run before)
  have recalls : Recalls s past := by
    have := moments_induction (motive := Recalls) started h.noStop (Recalls.of_start fresh)
      fun t past e he ht hr => hr.apply ht (h.noStop e he)
    rwa [← h.run_eq] at this
  have hlimit : s.history.limit = limit := run_history_limit _ _
  refine ⟨?_, recalls.increasing, ?_, ?_⟩
  · intro back hback
    obtain ⟨x, hx⟩ := History.exists_fromNewest? hback
    obtain ⟨ms, hsub, hms⟩ := recalls.recorded
    have hmem : x ∈ ms.map snapshot := hms ▸ History.mem_of_fromNewest? hx
    obtain ⟨m, hm, rfl⟩ := List.mem_map.1 hmem
    obtain ⟨hpos, hplace⟩ := recalls.getElem?_steps (hsub.subset hm)
    exact ⟨m.snapshot, m, hx, hpos, hplace, rfl, recalls.logs m (hsub.subset hm)⟩
  · intro m hm fits
    rw [History.fromNewest?_zero]
    exact recalls.newest m hm (hlimit ▸ fits)
  · intro noDetach
    refine recalls.consecutive ?_
    have := moments_induction (motive := Unbroken) started h.noStop (Unbroken.of_start fresh)
      fun t past e he ht hu => hu.apply ht (h.noStop e he) fun id hid => noDetach id (hid ▸ he)
    rwa [← h.run_eq] at this

/-- A part that is attached before the third statement makes its snapshot so heavy that the first has to go: the
history holds the second, as it was before, and the third. -/
theorem history_tells_moments_blink :
    let source := "void loop() \x7b\nSerial.print(7);\ndigitalWrite(13, HIGH);\n\x7d\n".toList
    let led : Peripheral := { id := "led".toList, kind := .redLed, pin := .number 13 }
    let during : List Event := [.tick 10, .tick 20, .attach led, .tick 30]
    let events : List Event := .load source :: .start :: during
    let s := (new {} 500).run events
    let past := ((new {} 500).run [.load source]).start.moments during
    UnderWay (new {} 500) events [.load source] during ∧ s.history.size = 2 ∧
      (∃ x m, s.history.fromNewest? 1 = some x ∧ past[x.steps - 1]? = some m ∧ x = m.snapshot ∧
        s.board.serial.atMark x.serial = m.board.serial) ∧
      ∃ first, s.history.snapshots.map (·.steps) = List.range' first 2 := by
  intro source led during events s past
  have under : UnderWay (new {} 500) events [.load source] during := ⟨rfl, by decide +kernel, by decide⟩
  have two : s.history.size = 2 := by decide +kernel
  obtain ⟨tells, -, -, whole⟩ := (history_tells_moments {} 500 events).2 _ _ under
  obtain ⟨x, m, hx, -, hm, hxm, hlog⟩ := tells 1 (lt_of_lt_of_eq (by decide) two.symm)
  obtain ⟨first, hfirst⟩ := whole (by simp [during])
  exact ⟨under, two, ⟨x, m, hx, hm, hxm, hlog⟩, first, by rw [← two]; exact hfirst⟩

end Session

end Breadboard
