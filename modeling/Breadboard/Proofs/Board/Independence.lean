/-
  Breadboard.Proofs.Board.Independence — statements that may run in either order.

  A board has three parts, and what a statement does to each of them depends on that part alone
  (`Board.execute_eq`). Two statements collide when both set the mode of one pin, both set its level,
  both print, or both set the speed. A mode and a level of one pin do not: each is a field of its own,
  and whichever comes first puts the pin into use with the other one at its default.

  Proved: statements that do not collide leave the same board in either order, and each asks for the
  same wait; a write that is made again changes nothing (`either_order_and_again`). The table of pins
  is compared by its lookups: it lists the pins in the order in which they came into use.
-/

import Breadboard.Board.Basic

namespace Breadboard

/-! ## Pins -/

namespace PinTable

/-- Two changes may be made in either order if they are of different pins, or if they do so to one. -/
theorem find?_update_comm (t : PinTable) {p q : PinId} {f g : Pin → Pin} (h : p = q → ∀ a, f (g a) = g (f a))
    (r : PinId) : ((t.update p f).update q g).find? r = ((t.update q g).update p f).find? r := by
  simp only [find?_update]
  by_cases hpq : p = q
  · subst hpq
    by_cases hr : p = r
    · simp [hr, h rfl]
    · simp [hr]
  · by_cases hp : p = r
    · subst hp
      simp [Ne.symm hpq]
    · by_cases hq : q = r
      · subst hq
        simp [hpq]
      · simp [hp, hq]

theorem updateIn_updateIn (p : PinId) (f g : Pin → Pin) (l : List (PinId × Pin)) :
    updateIn p g (updateIn p f l) = updateIn p (g ∘ f) l := by
  induction l with
  | nil => simp [updateIn]
  | cons e l ih =>
    obtain ⟨q, a⟩ := e
    by_cases hq : q = p
    · simp [updateIn, hq]
    · simp [updateIn, hq, ih]

theorem write_write (t : PinTable) (p : PinId) (l : Level) : (t.write p l).write p l = t.write p l := by
  show PinTable.mk (updateIn p _ (updateIn p _ t.entries)) = ⟨updateIn p _ t.entries⟩
  rw [updateIn_updateIn]
  rfl

end PinTable

/-! ## Parts -/

namespace Registry

/-- Parts on different pins are told their levels in either order. -/
theorem sync_comm (r : Registry) {p q : PinId} (h : p ≠ q) (k l : Level) :
    (r.sync p k).sync q l = (r.sync q l).sync p k := by
  simp only [sync, List.map_map]
  congr 1
  refine List.map_congr_left ?_
  intro b _
  by_cases hp : b.peripheral.pin = p
  · have hq : b.peripheral.pin ≠ q := fun e => h (hp.symm.trans e)
    simp [hp, h]
  · by_cases hq : b.peripheral.pin = q
    · simp [hq, Ne.symm h]
    · simp [hp, hq]

/-- A later level on a pin takes the place of an earlier one. -/
theorem sync_sync (r : Registry) (p : PinId) (k l : Level) : (r.sync p k).sync p l = r.sync p l := by
  simp only [sync, List.map_map]
  congr 1
  refine List.map_congr_left ?_
  intro b _
  by_cases hp : b.peripheral.pin = p
  · simp [hp]
  · simp [hp]

end Registry

/-! ## Statements -/

namespace Statement

/-- Both set the mode of one pin, or its level, or the speed, or both print. -/
def Collides : Statement → Statement → Prop
  | .mode p _, .mode q _ => p = q
  | .write p _, .write q _ => p = q
  | .begin _, .begin _ => True
  | .print _ _, .print _ _ => True
  | _, _ => False

def onPins : Statement → PinTable → PinTable
  | .mode p m, t => t.setMode p m
  | .write p l, t => t.write p l
  | _, t => t

def onSerial (now : Nat) : Statement → SerialLog → SerialLog
  | .begin baud, log => log.begin baud
  | .print text newline, log => log.append ⟨now, text, newline⟩
  | _, log => log

def onParts : Statement → Registry → Registry
  | .write p l, r => r.sync p l
  | _, r => r

variable {s t : Statement}

theorem find?_onPins_comm (h : ¬ s.Collides t) (pins : PinTable) (r : PinId) :
    (t.onPins (s.onPins pins)).find? r = (s.onPins (t.onPins pins)).find? r := by
  cases s with
  | mode p m =>
    cases t with
    | mode q n => exact pins.find?_update_comm (fun e => absurd e h) r
    | write q l =>
      refine pins.find?_update_comm ?_ r
      intro _ _
      rfl
    | delay | begin | print | unrecognized => rfl
  | write p l =>
    cases t with
    | mode q m =>
      refine pins.find?_update_comm ?_ r
      intro _ _
      rfl
    | write q k => exact pins.find?_update_comm (fun e => absurd e h) r
    | delay | begin | print | unrecognized => rfl
  | delay | begin | print | unrecognized => rfl

/-- The speed and the prints stand in different fields of the log. -/
theorem onSerial_comm (h : ¬ s.Collides t) (i j : Nat) (log : SerialLog) :
    t.onSerial j (s.onSerial i log) = s.onSerial i (t.onSerial j log) := by
  cases s with
  | begin baud =>
    cases t with
    | begin => exact absurd trivial h
    | mode | write | delay | print | unrecognized => rfl
  | print text newline =>
    cases t with
    | print => exact absurd trivial h
    | mode | write | delay | begin | unrecognized => rfl
  | mode | write | delay | unrecognized => rfl

theorem onParts_comm (h : ¬ s.Collides t) (r : Registry) : t.onParts (s.onParts r) = s.onParts (t.onParts r) := by
  cases s with
  | write p l =>
    cases t with
    | write q k => exact r.sync_comm h l k
    | mode | delay | begin | print | unrecognized => rfl
  | mode | delay | begin | print | unrecognized => rfl

end Statement

namespace Board

theorem execute_eq (b : Board) (now : Nat) (s : Statement) :
    b.execute now s = ⟨s.onPins b.pins, s.onSerial now b.serial, s.onParts b.peripherals⟩ := by
  cases s <;> rfl

/-- A statement run on a board: the board after it, and the wait that it asks for. -/
def perform (b : Board) (now : Nat) (s : Statement) : Board × Option Nat := (b.execute now s, s.pause?)

/-- The same but for the order in which the pins came into use. -/
structure Same (b b' : Board) : Prop where
  pins : ∀ p, b.pins.find? p = b'.pins.find? p
  serial : b.serial = b'.serial
  peripherals : b.peripherals = b'.peripherals

theorem same_execute_comm (b : Board) {s t : Statement} (h : ¬ s.Collides t) (i j : Nat) :
    Same ((b.execute i s).execute j t) ((b.execute j t).execute i s) := by
  simp only [execute_eq]
  exact ⟨Statement.find?_onPins_comm h b.pins, Statement.onSerial_comm h i j b.serial,
    Statement.onParts_comm h b.peripherals⟩

theorem execute_write_write (b : Board) (p : PinId) (l : Level) (i j : Nat) :
    (b.execute i (.write p l)).execute j (.write p l) = b.execute i (.write p l) := by
  show Board.mk ((b.pins.write p l).write p l) b.serial ((b.peripherals.sync p l).sync p l) = _
  rw [PinTable.write_write, Registry.sync_sync]
  rfl

/-- Two statements that do not collide, run on any board at any times, leave in either order the same pins, the same log
and the same parts, and each asks for the same wait. A digital write that is made twice leaves what it leaves when made
once. -/
theorem either_order_and_again (b : Board) {s t : Statement} (apart : ¬ s.Collides t) (i j : Nat) :
    let s₁ := b.perform i s
    let t₂ := s₁.1.perform j t
    let t₁ := b.perform j t
    let s₂ := t₁.1.perform i s
    Same t₂.1 s₂.1 ∧ s₁.2 = s₂.2 ∧ t₁.2 = t₂.2 ∧
      ∀ p l, (((b.perform i (.write p l)).1).perform j (.write p l)).1 = (b.perform i (.write p l)).1 := by
  intro s₁ t₂ t₁ s₂
  refine ⟨b.same_execute_comm apart i j, rfl, rfl, ?_⟩
  intro p l
  exact b.execute_write_write p l i j

/-- The mode and the level of one pin that no one has used before, with a lamp on it. -/
theorem either_order_and_again_blink :
    let b : Board := { peripherals := Registry.ofList [{ id := "led".toList, kind := .redLed, pin := .number 13 }] }
    let s : Statement := .mode (.number 13) .output
    let t : Statement := .write (.number 13) .high
    let s₁ := b.perform 50 s
    let t₂ := s₁.1.perform 100 t
    let t₁ := b.perform 100 t
    let s₂ := t₁.1.perform 50 s
    ¬ s.Collides t ∧ Same t₂.1 s₂.1 ∧ s₁.2 = s₂.2 ∧ t₁.2 = t₂.2 ∧ ((b.perform 50 t).1.perform 100 t).1 = (b.perform 50 t).1 ∧
      s₂.1.pins.entries = [(.number 13, ⟨.output, .high⟩)] ∧ s₂.1.peripherals.bindings.map (·.shows) = [.high] := by
  intro b s t s₁ t₂ t₁ s₂
  have apart : ¬ s.Collides t := id
  obtain ⟨same, wait, wait', again⟩ := b.either_order_and_again apart 50 100
  exact ⟨apart, same, wait, wait', again (.number 13) .high, by decide, by decide⟩

end Board

end Breadboard
