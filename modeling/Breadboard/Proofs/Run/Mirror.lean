/-
  Breadboard.Proofs.Run.Mirror — parts show what their pins read.

  The levels of the pins stand in one table and what the parts show in another; only a write,
  an attached part and a reset change what they have in common. `Mirrors` says that the two
  agree. A write and an attached part bring all parts on one pin to its level
  (`Mirrors.of_sync`); everything else leaves levels and parts as they were.

  Proved: whatever happens to a session, its parts go on showing what their pins read, and so
  do the parts in every step it has recorded (`parts_show_pins`).
-/

import Mathlib
import Breadboard.Proofs.Run.Session

namespace Breadboard

/-! ## Levels -/

namespace PinTable

theorem level_of_find?_none {t : PinTable} {p : PinId} (h : t.find? p = none) : t.level p = .low := by
  simp [level, h]

theorem level_update (t : PinTable) (p q : PinId) (f : Pin → Pin) :
    (t.update p f).level q = if p = q then (f ((t.find? p).getD {})).level else t.level q := by
  unfold level
  rw [find?_update]
  split <;> rfl

theorem level_write (t : PinTable) (p q : PinId) (l : Level) :
    (t.write p l).level q = if p = q then l else t.level q := level_update t p q _

/-- A pin that gets its mode before its first write reads low, as it did before. -/
theorem level_setMode (t : PinTable) (p q : PinId) (m : PinMode) : (t.setMode p m).level q = t.level q := by
  unfold setMode
  rw [level_update]
  split
  · rename_i hpq
    subst hpq
    unfold level
    cases t.find? p <;> rfl
  · rfl

end PinTable

/-! ## Parts -/

namespace Registry

theorem mem_of_mem_remove {r : Registry} {id : Text} {b : Binding} (h : b ∈ (r.remove id).bindings) :
    b ∈ r.bindings := List.mem_of_mem_eraseP h

theorem mem_of_mem_add {r : Registry} {p : Peripheral} {b : Binding} (h : b ∈ (r.add p).bindings) :
    b ∈ r.bindings ∨ b = { peripheral := p } := by
  rcases List.mem_append.1 h with h | h
  · exact Or.inl (mem_of_mem_remove h)
  · exact Or.inr (List.mem_singleton.1 h)

end Registry

/-- Every part shows what its pin reads. -/
def Mirrors (pins : PinTable) (parts : Registry) : Prop :=
  ∀ b ∈ parts.bindings, b.shows = pins.level b.peripheral.pin

namespace Mirrors

variable {pins pins' : PinTable} {parts : Registry}

theorem of_low (h : ∀ b ∈ parts.bindings, b.shows = .low) : Mirrors {} parts := h

theorem congr (h : Mirrors pins parts) (hl : ∀ p, pins'.level p = pins.level p) : Mirrors pins' parts := by
  intro b hb
  rw [hl]
  exact h b hb

/-- The parts on one pin are brought to its level; the others need to agree already. -/
theorem of_sync {p : PinId} (h : ∀ b ∈ parts.bindings, b.peripheral.pin ≠ p → b.shows = pins.level b.peripheral.pin) :
    Mirrors pins (parts.sync p (pins.level p)) := by
  intro b hb
  obtain ⟨b₀, hb₀, rfl⟩ := List.mem_map.1 hb
  by_cases hp : b₀.peripheral.pin = p
  · simp only [hp, if_true]
  · simp only [hp, if_false]
    exact h b₀ hb₀ hp

theorem write (h : Mirrors pins parts) (p : PinId) (l : Level) : Mirrors (pins.write p l) (parts.sync p l) := by
  have hl : (pins.write p l).level p = l := by rw [PinTable.level_write, if_pos rfl]
  have hs : Mirrors (pins.write p l) (parts.sync p ((pins.write p l).level p)) := by
    refine of_sync fun b hb hp => ?_
    rw [PinTable.level_write, if_neg (Ne.symm hp)]
    exact h b hb
  rwa [hl] at hs

theorem attach (h : Mirrors pins parts) (p : Peripheral) :
    Mirrors pins ((parts.add p).sync p.pin (pins.level p.pin)) := by
  refine of_sync fun b hb hp => ?_
  rcases Registry.mem_of_mem_add hb with hb | rfl
  · exact h b hb
  · exact absurd rfl hp

theorem remove (h : Mirrors pins parts) (id : Text) : Mirrors pins (parts.remove id) :=
  fun b hb => h b (Registry.mem_of_mem_remove hb)

theorem resetDisplay (parts : Registry) : Mirrors {} parts.resetDisplay := by
  intro b hb
  obtain ⟨b₀, -, rfl⟩ := List.mem_map.1 hb
  rfl

end Mirrors

theorem Board.mirrors_execute {b : Board} (h : Mirrors b.pins b.peripherals) (now : Nat) (st : Statement) :
    Mirrors (b.execute now st).pins (b.execute now st).peripherals := by
  cases st with
  | mode pin m => exact h.congr fun p => PinTable.level_setMode b.pins pin p m
  | write pin l => exact h.write pin l
  | delay d => exact h
  | begin baud => exact h
  | print text newline => exact h
  | unrecognized => exact h

/-! ## Sessions -/

namespace Session

/-- The parts show what their pins read, now and in every recorded step. -/
structure Shown (s : Session) : Prop where
  board : Mirrors s.board.pins s.board.peripherals
  recorded : ∀ x ∈ s.history.snapshots, Mirrors x.pins x.peripherals

variable {s : Session}

theorem Shown.record (h : Shown s) : Shown s.record where
  board := by rw [record_board]; exact h.board
  recorded x hx := by
    rcases mem_record_snapshots hx with hx | rfl
    · exact h.recorded x hx
    · exact h.board

theorem Shown.execute (h : Shown s) (now : Nat) (n : Node) : Shown (s.execute now n) :=
  ⟨Board.mirrors_execute h.board now n.statement, h.recorded⟩

theorem Shown.tick (h : Shown s) (now : Nat) : Shown (s.tick now) := by
  have hu : Shown (s.ungated now) := ⟨h.board, h.recorded⟩
  rcases tick_cases s now with ⟨_, _, e⟩ | ⟨_, _, e⟩ | ⟨_, _, _, e⟩ | ⟨n, _, _, e⟩ <;> rw [e]
  · exact h
  · exact ⟨h.board, h.recorded⟩
  · exact hu
  · exact (hu.execute now n).record

theorem Shown.apply (h : Shown s) (e : Event) : Shown (s.apply e) := by
  cases e with
  | load source =>
    simp only [Session.apply, load, loadProgram]
    split <;> exact ⟨h.board, h.recorded⟩
  | start =>
    simp only [Session.apply, start]
    split
    · exact h
    · exact ⟨h.board, h.recorded⟩
  | stop => exact ⟨Mirrors.resetDisplay s.board.peripherals, fun _ hx => absurd hx List.not_mem_nil⟩
  | tick now => exact h.tick now
  | attach p => exact ⟨h.board.attach p, h.recorded⟩
  | detach id => exact ⟨h.board.remove id, h.recorded⟩

/-- Parts that are dark at first show what their pins read, whatever is loaded, run, stopped or reset, attached and
detached, and they do so in every step in the history; a pin that is not in use reads low. -/
theorem parts_show_pins (peripherals : Registry) (limit : Nat) (events : List Event)
    (dark : ∀ b ∈ peripherals.bindings, b.shows = .low) :
    let s := (new peripherals limit).run events
    (∀ b ∈ s.board.peripherals.bindings, b.shows = s.board.pins.level b.peripheral.pin) ∧
      (∀ x ∈ s.history.snapshots, ∀ b ∈ x.peripherals.bindings, b.shows = x.pins.level b.peripheral.pin) ∧
      ∀ pins : PinTable, ∀ p, pins.find? p = none → pins.level p = .low := by
  intro s
  have start : Shown (new peripherals limit) := ⟨Mirrors.of_low dark, fun _ hx => absurd hx List.not_mem_nil⟩
  have h : Shown s := run_induction start fun _ e _ ht => ht.apply e
  exact ⟨h.board, h.recorded, fun _ _ hp => PinTable.level_of_find?_none hp⟩

/-- A buzzer attached to a pin that was written to high before shows high at once, as the LED there does. The step that
was recorded before it came has the LED alone, and that one shows high. -/
theorem parts_show_pins_blink :
    let led : Peripheral := { id := "led".toList, kind := .redLed, pin := .number 13 }
    let buzzer : Peripheral := { id := "buzzer".toList, kind := .buzzer, pin := .number 13 }
    let parts := Registry.ofList [led]
    let source := "void loop() \x7b\ndigitalWrite(13, HIGH);\n\x7d\n".toList
    let s := (new parts 1000).run [.load source, .start, .tick 50, .attach buzzer]
    (∀ b ∈ parts.bindings, b.shows = .low) ∧ s.board.pins.level (.number 13) = .high ∧
      s.board.peripherals.bindings.map (·.peripheral) = [led, buzzer] ∧
      s.history.snapshots.map (·.peripherals.bindings) = [[{ peripheral := led, shows := .high }]] ∧
      (∀ b ∈ s.board.peripherals.bindings, b.shows = s.board.pins.level b.peripheral.pin) ∧
      ∀ x ∈ s.history.snapshots, ∀ b ∈ x.peripherals.bindings, b.shows = x.pins.level b.peripheral.pin := by
  intro led buzzer parts source s
  have dark : ∀ b ∈ parts.bindings, b.shows = .low := by decide
  obtain ⟨now, recorded, -⟩ := parts_show_pins parts 1000 [.load source, .start, .tick 50, .attach buzzer] dark
  exact ⟨dark, by decide +kernel, by decide +kernel, by decide +kernel, now, recorded⟩

end Session

end Breadboard
