/-
  Breadboard.Proofs.Run.Trace — which statements a run executes, and in which order.

  A program is unrolled into its setup and then its loop over and over (`Program.unroll`;
  `Program.nth?` is one place of it). `Session.trace` lists what the events of a run execute,
  each statement with the time of its tick. `Follows` is the invariant: the statements so far
  are the first ones of the unrolled program, the phase and the cursor are those after so many,
  and the pins and the log are what these statements make of an empty board.

  Proved: `follows_start` and `follows_apply` for one event, `follows_run` for a run, and the
  execution of a loaded program from first to last (`run_executes_program`).
-/

import Breadboard.Proofs.Run.Session

namespace Breadboard

/-! ## The program unrolled -/

namespace Program

/-- The setup and then the loop so many times over. -/
def unroll (p : Program) (rounds : Nat) : List Node := p.setup ++ (List.replicate rounds p.loop).flatten

/-- The statement at a place of the setup followed by the loop for ever. -/
def nth? (p : Program) (k : Nat) : Option Node :=
  if k < p.setup.length then p.setup[k]? else p.loop[(k - p.setup.length) % p.loop.length]?

/-- The phase and the cursor after so many statements. -/
def placeAfter (p : Program) (n : Nat) : Phase × Nat :=
  if p.setup = [] ∧ p.loop = [] then (.halted, 0)
  else if n < p.setup.length then (.setup, n)
  else if p.loop = [] then (.loop, 0)
  else (.loop, (n - p.setup.length) % p.loop.length)

theorem getElem?_rounds (l : List Node) (rounds i : Nat) (h : i < rounds * l.length) :
    (List.replicate rounds l).flatten[i]? = l[i % l.length]? := by
  induction rounds generalizing i with
  | zero => simp at h
  | succ rounds ih =>
    rw [List.replicate_succ, List.flatten_cons]
    by_cases hi : i < l.length
    · rw [List.getElem?_append_left hi, Nat.mod_eq_of_lt hi]
    · have hi : l.length ≤ i := by omega
      rw [Nat.succ_mul] at h
      rw [List.getElem?_append_right hi, ih (i - l.length) (by omega), ← Nat.mod_eq_sub_mod hi]

theorem getElem?_unroll (p : Program) {rounds k : Nat} (h : k < rounds) : (p.unroll rounds)[k]? = p.nth? k := by
  unfold unroll nth?
  by_cases hs : k < p.setup.length
  · rw [if_pos hs, List.getElem?_append_left hs]
  · rw [if_neg hs, List.getElem?_append_right (by omega)]
    by_cases hl : p.loop = []
    · simp [hl]
    · have : 0 < p.loop.length := List.length_pos_iff.mpr hl
      have : rounds ≤ rounds * p.loop.length := Nat.le_mul_of_pos_right _ this
      exact getElem?_rounds _ _ _ (by omega)

theorem nth?_eq_none_iff (p : Program) (k : Nat) : p.nth? k = none ↔ p.setup.length ≤ k ∧ p.loop = [] := by
  unfold nth?
  split
  · rename_i h
    simp only [List.getElem?_eq_none_iff]
    omega
  · rename_i h
    rw [List.getElem?_eq_none_iff]
    constructor
    · intro hl
      refine ⟨by omega, List.eq_nil_of_length_eq_zero ?_⟩
      by_cases h0 : p.loop.length = 0
      · exact h0
      · have := Nat.mod_lt (k - p.setup.length) (Nat.pos_of_ne_zero h0); omega
    · intro h0
      obtain ⟨_, hl⟩ := h0
      simp [hl]

/-- Behind the end of the list there is nothing more. -/
theorem nth?_eq_none_of_le {p : Program} {k m : Nat} (h : p.nth? k = none) (hm : k ≤ m) : p.nth? m = none := by
  rw [nth?_eq_none_iff] at *
  exact ⟨by omega, h.2⟩

theorem placeAfter_ne_idle (p : Program) (n : Nat) : (p.placeAfter n).1 ≠ .idle := by
  unfold placeAfter
  split
  · simp
  · split
    · simp
    · split <;> simp

theorem succ_mod (m : Nat) {l : Nat} (h : 0 < l) : (m + 1) % l = if l ≤ m % l + 1 then 0 else m % l + 1 := by
  have hlt := Nat.mod_lt m h
  rw [← Nat.mod_add_mod]
  split
  · have : m % l + 1 = l := by omega
    rw [this, Nat.mod_self]
  · exact Nat.mod_eq_of_lt (by omega)

end Program

namespace Progress

theorem place_start {s : Progress} (idle : s.phase = .idle) (p : Program) :
    ((s.start p).phase, (s.start p).cursor) = p.placeAfter 0 := by
  unfold start Program.placeAfter
  rw [if_neg (by simp [idle])]
  by_cases hs : p.setup = []
  · by_cases hl : p.loop = [] <;> simp [hs, hl]
  · simp [hs, List.length_pos_iff.mpr hs]

theorem current?_of_place {s : Progress} {p : Program} {n : Nat} (h : (s.phase, s.cursor) = p.placeAfter n) :
    s.current? p = p.nth? n := by
  unfold Program.placeAfter at h
  unfold current? Program.nth?
  split at h
  · rename_i he
    obtain ⟨hp, _⟩ := Prod.mk.inj h
    simp [hp, he.1, he.2, Phase.block?]
  · split at h
    · rename_i hn
      obtain ⟨hp, hc⟩ := Prod.mk.inj h
      simp [hp, hc, hn, Phase.block?, Program.block]
    · rename_i hn
      split at h
      · rename_i hl
        obtain ⟨hp, hc⟩ := Prod.mk.inj h
        simp [hp, hc, hn, hl, Phase.block?, Program.block]
      · obtain ⟨hp, hc⟩ := Prod.mk.inj h
        simp [hp, hc, hn, Phase.block?, Program.block]

/-- Moving on goes to the next place: through the setup, over to the loop, and round it. -/
theorem place_advance {s : Progress} {p : Program} {n : Nat} (h : (s.phase, s.cursor) = p.placeAfter n)
    (hn : p.nth? n ≠ none) : ((s.advance p).phase, (s.advance p).cursor) = p.placeAfter (n + 1) := by
  have hend : ¬ (p.setup.length ≤ n ∧ p.loop = []) := fun e => hn ((p.nth?_eq_none_iff n).mpr e)
  have hne : ¬ (p.setup = [] ∧ p.loop = []) := fun e => hend ⟨by simp [e.1], e.2⟩
  unfold Program.placeAfter at h ⊢
  rw [if_neg hne] at h ⊢
  by_cases hs : n < p.setup.length
  · rw [if_pos hs] at h
    obtain ⟨hp, hc⟩ := Prod.mk.inj h
    have hround : s.comesRound p.setup = false := comesRound_eq_false (by omega)
    by_cases hlast : n + 1 < p.setup.length
    · simp [advance, hp, hc, hround, hlast, Nat.not_le.mpr hlast]
    · have : n + 1 = p.setup.length := by omega
      by_cases hl : p.loop = [] <;> simp [advance, hp, hc, hround, this, hl]
  · have hl : p.loop ≠ [] := fun e => hend ⟨by omega, e⟩
    rw [if_neg hs, if_neg hl] at h
    rw [if_neg (by omega), if_neg hl]
    obtain ⟨hp, hc⟩ := Prod.mk.inj h
    have e : n + 1 - p.setup.length = n - p.setup.length + 1 := by omega
    rw [e, Program.succ_mod _ (List.length_pos_iff.mpr hl)]
    simp only [advance, hp, hl, if_false, hc]
    split <;> rfl

end Progress

/-! ## Traces -/

/-- A statement that ran, and the time of the tick that ran it. -/
structure Execution where
  time : Nat
  node : Node
  deriving DecidableEq, Repr

/-- The board after statements that ran one after the other. -/
def Board.replay (b : Board) (done : List Execution) : Board :=
  done.foldl (fun b x => b.execute x.time x.node.statement) b

theorem Board.replay_concat (b : Board) (done : List Execution) (x : Execution) :
    b.replay (done ++ [x]) = (b.replay done).execute x.time x.node.statement := by
  simp [replay]

/-- What a statement does to the pins and the log does not depend on the parts. -/
theorem Board.execute_congr {b b' : Board} (hp : b.pins = b'.pins) (hs : b.serial = b'.serial) (now : Nat)
    (st : Statement) : (b.execute now st).pins = (b'.execute now st).pins ∧
      (b.execute now st).serial = (b'.execute now st).serial := by
  cases st <;> simp [execute, hp, hs]

namespace Session

/-- What an event executes. That the count of steps moves says that a statement ran, and the one that
    ran is the one that stood next. -/
def executed? (s : Session) : Event → Option Execution
  | .tick now => if (s.tick now).steps = s.steps then none else s.next?.map (⟨now, ·⟩)
  | _ => none

def trace (s : Session) : List Event → List Execution
  | [] => []
  | e :: es => (s.executed? e).toList ++ (s.apply e).trace es

theorem trace_append (s : Session) (es es' : List Event) :
    s.trace (es ++ es') = s.trace es ++ (s.run es).trace es' := by
  induction es generalizing s with
  | nil => rfl
  | cons e es ih => simp [trace, ih, run]

/-! ## A run follows its program -/

structure Follows (p : Program) (s : Session) (done : List Execution) : Prop where
  program : s.program = p
  steps : s.steps = done.length
  nodes : ∀ k < done.length, (done.map (·.node))[k]? = p.nth? k
  place : (s.progress.phase, s.progress.cursor) = p.placeAfter done.length
  line : s.line = done.getLast?.map (·.node.line)
  pins : s.board.pins = (Board.replay {} done).pins
  serial : s.board.serial = (Board.replay {} done).serial

variable {p : Program} {s : Session} {done : List Execution}

theorem Follows.next? (h : Follows p s done) : s.next? = p.nth? done.length := by
  rw [← Progress.current?_of_place h.place, ← h.program]
  rfl

theorem Follows.isStarted (h : Follows p s done) : s.isStarted = true := by
  rw [isStarted_iff]
  have hp : s.progress.phase = (p.placeAfter done.length).1 := congrArg Prod.fst h.place
  rw [hp]
  exact p.placeAfter_ne_idle _

theorem follows_start (fresh : Fresh s) : Follows s.program s.start [] := by
  rw [start_of_idle fresh.isStarted]
  exact ⟨rfl, rfl, by simp, Progress.place_start (by rw [fresh.progress]) _, rfl, fresh.pins, fresh.serial⟩

theorem executed?_of_steps_eq (s : Session) (now : Nat) (h : (s.tick now).steps = s.steps) :
    s.executed? (.tick now) = none :=
  if_pos h

theorem executed?_of_open {now : Nat} {n : Node} (hn : s.next? = some n)
    (h : s.tick now = ((s.ungated now).execute now n).record) : s.executed? (.tick now) = some ⟨now, n⟩ := by
  have : (s.tick now).steps ≠ s.steps := by rw [h]; simp [execute, ungated]
  simp [executed?, this, hn]

/-- A tick that runs nothing changes at most the time noted and the gate; what any other runs is the statement that
stood next. -/
theorem executed?_cases (s : Session) (now : Nat) :
    (s.executed? (.tick now) = none ∧
      ∃ time gate, s.tick now = { s with time, progress := { s.progress with wakeAt := gate } }) ∨
    ∃ n, s.executed? (.tick now) = some ⟨now, n⟩ ∧ s.next? = some n ∧
      s.tick now = ((s.ungated now).execute now n).record := by
  rcases tick_cases s now with ⟨_, _, e⟩ | ⟨_, _, e⟩ | ⟨_, _, _, e⟩ | ⟨n, _, hn, e⟩
  · exact Or.inl ⟨executed?_of_steps_eq s now (by rw [e]), s.time, s.progress.wakeAt, e⟩
  · exact Or.inl ⟨executed?_of_steps_eq s now (by rw [e]), now, s.progress.wakeAt, e⟩
  · obtain ⟨gate, hgate⟩ := s.progress.exists_passGate now
    refine Or.inl ⟨executed?_of_steps_eq s now (by rw [e]; rfl), now, gate, ?_⟩
    rw [e, ungated, hgate]
  · exact Or.inr ⟨n, executed?_of_open hn e, hn, e⟩

theorem follows_execute (h : Follows p s done) {now : Nat} {n : Node} (hn : s.next? = some n) :
    Follows p ((s.ungated now).execute now n).record (done ++ [⟨now, n⟩]) := by
  have hnth : p.nth? done.length = some n := by rw [← h.next?, hn]
  obtain ⟨hpins, hserial⟩ := Board.execute_congr h.pins h.serial now n.statement
  refine ⟨?_, ?_, ?_, ?_, ?_, ?_, ?_⟩
  · simp [execute, ungated, h.program]
  · simp [execute, ungated, h.steps]
  · intro k hk
    rw [List.map_append]
    by_cases hlast : k = done.length
    · subst hlast; simp [hnth]
    · have hk : k < done.length := by simp at hk; omega
      rw [List.getElem?_append_left (by simpa using hk)]
      exact h.nodes k hk
  · rw [record_progress, List.length_append]
    simp only [execute, ungated, h.program]
    apply Progress.place_advance
    · rw [← h.place]
      split <;> simp [Progress.sleepUntil]
    · simp [hnth]
  · simp [execute]
  · rw [Board.replay_concat, record_board]; exact hpins
  · rw [Board.replay_concat, record_board]; exact hserial

/-- Whatever happens short of a stop, the run goes on along its program. -/
theorem follows_apply (h : Follows p s done) {e : Event} (he : e ≠ .stop) :
    Follows p (s.apply e) (done ++ (s.executed? e).toList) := by
  cases e with
  | load source =>
    show Follows p (s.load source) (done ++ [])
    rw [load_of_isStarted h.isStarted, List.append_nil]
    exact ⟨h.program, h.steps, h.nodes, h.place, h.line, h.pins, h.serial⟩
  | start =>
    show Follows p s.start (done ++ [])
    rwa [start_of_isStarted h.isStarted, List.append_nil]
  | stop => exact absurd rfl he
  | tick now =>
    show Follows p (s.tick now) _
    rcases executed?_cases s now with ⟨hx, time, gate, e⟩ | ⟨n, hx, hn, e⟩
    · rw [hx, e, Option.toList_none, List.append_nil]
      exact ⟨h.program, h.steps, h.nodes, h.place, h.line, h.pins, h.serial⟩
    · rw [hx, e]
      exact follows_execute h hn
  | attach part =>
    simp only [apply, attach, Board.attach, executed?, Option.toList_none, List.append_nil]
    exact ⟨h.program, h.steps, h.nodes, h.place, h.line, h.pins, h.serial⟩
  | detach id =>
    simp only [apply, detach, Board.detach, executed?, Option.toList_none, List.append_nil]
    exact ⟨h.program, h.steps, h.nodes, h.place, h.line, h.pins, h.serial⟩

theorem follows_run (h : Follows p s done) {es : List Event} (noStop : ∀ e ∈ es, e ≠ .stop) :
    Follows p (s.run es) (done ++ s.trace es) := by
  induction es generalizing s done with
  | nil => simpa [trace, run] using h
  | cons e es ih =>
    have := ih (follows_apply h (noStop e (List.mem_cons_self ..))) fun e' he => noStop e' (List.mem_cons_of_mem _ he)
    simpa [trace, run] using this

/-- A session that has been started follows the program that it had when the run under way began. -/
theorem exists_follows {peripherals : Registry} {limit : Nat} {es : List Event}
    (started : ((new peripherals limit).run es).isStarted = true) :
    ∃ p done, Follows p ((new peripherals limit).run es) done := by
  rcases idle_or_underWay (s := new peripherals limit) rfl es with hidle | ⟨before, during, h⟩
  · rw [hidle] at started; cases started
  · have h0 := follows_start (fresh_of_idle h.idle)
    rw [h.run_eq]
    exact ⟨_, _, follows_run h0 h.noStop⟩

theorem Follows.map_node (h : Follows p s done) : done.map (·.node) = (p.unroll s.steps).take s.steps := by
  apply List.ext_getElem?
  intro k
  rw [h.steps]
  by_cases hk : k < done.length
  · rw [List.getElem?_take_of_lt hk, h.nodes k hk, p.getElem?_unroll hk]
  · rw [List.getElem?_eq_none (by simpa using hk), List.getElem?_eq_none (by simp; omega)]

theorem Follows.line_eq (h : Follows p s done) :
    s.line = ((p.unroll s.steps).take s.steps).getLast?.map (·.line) := by
  rw [h.line, ← h.map_node, List.getLast?_map, Option.map_map]
  rfl

theorem steps_apply_le {e : Event} (h : s.isStarted = true) (he : e ≠ .stop) : (s.apply e).steps ≤ s.steps + 1 := by
  cases e with
  | load source => rw [apply, load_of_isStarted h]; exact Nat.le_succ _
  | start => rw [apply, start_of_isStarted h]; exact Nat.le_succ _
  | stop => exact absurd rfl he
  | tick now => exact tick_steps_le s now
  | attach p => exact Nat.le_succ _
  | detach id => exact Nat.le_succ _

/-- A program that is loaded into an idle session and started runs its setup and then its loop over and
    over, statement by statement and each at the time of one tick, whatever is loaded, attached or
    detached meanwhile: what ran, the line shown, the block and the cursor, the pins and the log are
    all determined by the number of steps and the times. -/
theorem run_executes_program (peripherals : Registry) (limit : Nat) (before during : List Event) (p : Program)
    (idle : ((new peripherals limit).run before).isStarted = false) (noStop : ∀ e ∈ during, e ≠ .stop) :
    let begun := (((new peripherals limit).run before).loadProgram p).start
    let s := begun.run during
    let done := begun.trace during
    done.length = s.steps ∧
      done.map (·.node) = (p.unroll s.steps).take s.steps ∧
      (∀ es e rest, during = es ++ e :: rest → (begun.run (es ++ [e])).steps ≤ (begun.run es).steps + 1) ∧
      s.line = ((p.unroll s.steps).take s.steps).getLast?.map (·.line) ∧
      (s.progress.phase, s.progress.cursor) = p.placeAfter s.steps ∧
      s.board.pins = (Board.replay {} done).pins ∧
      s.board.serial = (Board.replay {} done).serial := by
  intro begun s done
  have loaded := fresh_loadProgram (fresh_of_idle idle) p
  have hp : (((new peripherals limit).run before).loadProgram p).program = p := by
    simp [loadProgram, idle]
  have h0 : Follows p begun [] := hp ▸ follows_start loaded
  have h : Follows p s done := by simpa using follows_run h0 noStop
  refine ⟨h.steps.symm, h.map_node, ?_, h.line_eq, by rw [h.steps]; exact h.place, h.pins, h.serial⟩
  intro es e rest hsplit
  have hes : ∀ e' ∈ es, e' ≠ .stop := fun e' he => noStop e' (by simp [hsplit, he])
  rw [run_concat]
  exact steps_apply_le (follows_run h0 hes).isStarted (noStop e (by simp [hsplit]))

/-- A setup of one line and a loop of two: the loop starts over once the delay of its second line is
    through, and the tick at 100 waits. -/
theorem run_executes_blink :
    let p : Program :=
      { setup := [⟨.mode (.number 13) .output, "pinMode(13, OUTPUT);".toList, 2⟩]
        loop := [⟨.write (.number 13) .high, "digitalWrite(13, HIGH);".toList, 5⟩,
          ⟨.delay 100, "delay(100);".toList, 6⟩] }
    let during : List Event := [.tick 50, .load "void loop() {}".toList, .tick 10, .tick 60, .tick 100, .tick 160]
    let begun := (((new {} 0).run []).loadProgram p).start
    ((new {} 0).run []).isStarted = false ∧ (∀ e ∈ during, e ≠ .stop) ∧
      (begun.trace during).map (·.node) = (p.unroll 4).take 4 ∧ (begun.run during).line = some 5 := by
  intro p during begun
  have noStop : ∀ e ∈ during, e ≠ .stop := by decide
  have steps : (begun.run during).steps = 4 := by decide
  obtain ⟨_, nodes, _, line, _⟩ := run_executes_program {} 0 [] during p rfl noStop
  rw [steps] at nodes line
  exact ⟨rfl, noStop, nodes, line⟩

end Session

end Breadboard
