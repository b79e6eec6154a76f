/-
  Breadboard.Proofs.Board.Parts — which parts a registry holds, in which order, and what they show.

  A registry is told to add and to remove parts, to bring those on a pin to a level, and to show low
  everywhere (`Registry.Call`). What it holds after any calls can be read off the calls alone: a part
  stands if no call after its add drops its id, and it shows the level of the last sync of its pin
  since then and since the last reset (`standing`, `lastLevel`).

  One more call does the same to the registry as to the parts that stand (`bindings_apply`,
  `standing_concat`); removing takes the first part with an id, which is the only one because no two
  parts that stand have the same id (`nodup_standing`).

  Proved: after any calls the registry holds the parts that stand, and that of settings holds the last
  one of each id, all dark (`registry_by_latest_add`).
-/

import Mathlib.Data.List.Induction
import Breadboard.Settings.Basic

namespace Breadboard

namespace Registry

/-! ## Calls -/

inductive Call where
  | add (p : Peripheral)
  | remove (id : Text)
  | sync (pin : PinId) (l : Level)
  | resetDisplay
  deriving DecidableEq, Repr

def apply (r : Registry) : Call → Registry
  | .add p => r.add p
  | .remove id => r.remove id
  | .sync pin l => r.sync pin l
  | .resetDisplay => r.resetDisplay

def run (r : Registry) (calls : List Call) : Registry := calls.foldl apply r

namespace Call

/-- The part with this id is removed, or another one takes its id. -/
def Drops (id : Text) : Call → Prop
  | add p => p.id = id
  | remove i => i = id
  | sync _ _ | resetDisplay => False

instance (id : Text) : DecidablePred (Drops id)
  | add p => inferInstanceAs (Decidable (p.id = id))
  | remove i => inferInstanceAs (Decidable (i = id))
  | sync _ _ | resetDisplay => inferInstanceAs (Decidable False)

/-- The level that a sync of the pin tells. -/
def level? (pin : PinId) : Call → Option Level
  | sync q l => if q = pin then some l else none
  | add _ | remove _ | resetDisplay => none

end Call

/-! ## What the calls say -/

/-- The level of the last sync of a pin since the last reset; low if there was none. -/
def lastLevel (pin : PinId) (calls : List Call) : Level :=
  ((calls.reverse.takeWhile (· ≠ .resetDisplay)).findSome? (Call.level? pin)).getD .low

/-- The parts that were added and not dropped since, in the order of their adds. -/
def standing : List Call → List Binding
  | [] => []
  | .add p :: later =>
    if ∃ c ∈ later, c.Drops p.id then standing later else ⟨p, lastLevel p.pin later⟩ :: standing later
  | _ :: later => standing later

/-- The last part with each id, in the order of these. -/
def lastOfEach : List Peripheral → List Peripheral
  | [] => []
  | p :: ps => if ∃ q ∈ ps, q.id = p.id then lastOfEach ps else p :: lastOfEach ps

/-- Added, not dropped since, and showing the last level of its pin since then. -/
def Stands (calls : List Call) (b : Binding) : Prop :=
  ∃ before later, calls = before ++ .add b.peripheral :: later ∧ (∀ c ∈ later, ¬ c.Drops b.peripheral.id) ∧
    b.shows = lastLevel b.peripheral.pin later

theorem stands_cons {c : Call} {later : List Call} {b : Binding} :
    Stands (c :: later) b ↔
      (c = .add b.peripheral ∧ (∀ d ∈ later, ¬ d.Drops b.peripheral.id) ∧ b.shows = lastLevel b.peripheral.pin later) ∨
        Stands later b := by
  constructor
  · intro h
    obtain ⟨before, later', he, hb⟩ := h
    rcases before with _ | ⟨d, before⟩
    · obtain ⟨rfl, rfl⟩ := List.cons.inj he
      exact Or.inl ⟨rfl, hb⟩
    · exact Or.inr ⟨before, later', (List.cons.inj he).2, hb⟩
  · intro h
    rcases h with ⟨rfl, hb⟩ | ⟨before, later', rfl, hb⟩
    · exact ⟨[], later, rfl, hb⟩
    · exact ⟨c :: before, later', rfl, hb⟩

theorem mem_standing {calls : List Call} {b : Binding} : b ∈ standing calls ↔ Stands calls b := by
  induction calls with
  | nil => simp [standing, Stands]
  | cons c later ih =>
    rw [stands_cons, ← ih]
    cases c with
    | add p =>
      rw [standing]
      split
      · next dropped =>
        refine ⟨Or.inr, ?_⟩
        intro h
        rcases h with ⟨hp, kept, -⟩ | h
        · obtain ⟨c, hc, hcd⟩ := dropped
          rw [Call.add.inj hp] at hcd
          exact absurd hcd (kept c hc)
        · exact h
      · next kept =>
        rw [List.mem_cons]
        refine or_congr_left ⟨?_, ?_⟩
        · intro h
          subst h
          exact ⟨rfl, fun c hc hcd => kept ⟨c, hc, hcd⟩, rfl⟩
        · intro h
          obtain ⟨hp, -, hs⟩ := h
          obtain rfl := Call.add.inj hp
          rw [← hs]
    | remove | sync | resetDisplay =>
      refine ⟨Or.inr, ?_⟩
      intro h
      rcases h with ⟨h, -⟩ | h
      · cases h
      · exact h

/-- An add takes the id from every part that was added before it. -/
theorem nodup_standing (calls : List Call) : ((standing calls).map (·.peripheral.id)).Nodup := by
  induction calls with
  | nil => exact List.nodup_nil
  | cons c later ih =>
    cases c with
    | add p =>
      rw [standing]
      split
      · exact ih
      · next hd =>
        rw [List.map_cons, List.nodup_cons]
        refine ⟨?_, ih⟩
        intro h
        obtain ⟨b, hb, hid⟩ := List.mem_map.1 h
        obtain ⟨before, later', rfl, -⟩ := mem_standing.1 hb
        exact hd ⟨.add b.peripheral, by simp, hid⟩
    | remove | sync | resetDisplay => exact ih

/-! ## One more call -/

namespace Call

/-- What a part on a pin shows after a call, by what it showed before. -/
def shown (pin : PinId) (l : Level) : Call → Level
  | sync q k => if q = pin then k else l
  | resetDisplay => .low
  | add _ | remove _ => l

/-- A part that is there, after a call that does not drop it. -/
def tell (c : Call) (b : Binding) : Binding := { b with shows := c.shown b.peripheral.pin b.shows }

def added : Call → List Binding
  | add p => [{ peripheral := p }]
  | remove _ | sync _ _ | resetDisplay => []

end Call

theorem lastLevel_concat (pin : PinId) (calls : List Call) (c : Call) :
    lastLevel pin (calls ++ [c]) = c.shown pin (lastLevel pin calls) := by
  unfold lastLevel
  rw [List.reverse_append, List.reverse_singleton, List.singleton_append]
  cases c with
  | sync q k =>
    by_cases hq : q = pin
    · simp [Call.level?, Call.shown, hq]
    · simp [Call.level?, Call.shown, hq]
  | resetDisplay => simp [Call.shown]
  | add | remove => simp [Call.level?, Call.shown, List.findSome?_cons]

theorem standing_concat (calls : List Call) (c : Call) :
    standing (calls ++ [c]) = ((standing calls).filter (¬ c.Drops ·.peripheral.id)).map c.tell ++ c.added := by
  induction calls with
  | nil => cases c <;> simp [standing, Call.added, lastLevel]
  | cons d later ih =>
    cases d with
    | add p =>
      rw [List.cons_append, standing, standing]
      by_cases hd : ∃ e ∈ later, e.Drops p.id
      · have hd' : ∃ e ∈ later ++ [c], e.Drops p.id := by
          obtain ⟨e, he, hed⟩ := hd
          exact ⟨e, List.mem_append_left _ he, hed⟩
        rw [if_pos hd, if_pos hd', ih]
      · by_cases hc : c.Drops p.id
        · rw [if_neg hd, if_pos ⟨c, by simp, hc⟩, ih, List.filter_cons_of_neg (by simpa using hc)]
        · have hd' : ¬ ∃ e ∈ later ++ [c], e.Drops p.id := by
            intro h
            obtain ⟨e, he, hed⟩ := h
            rcases List.mem_append.1 he with he | he
            · exact hd ⟨e, he, hed⟩
            · rw [List.mem_singleton.1 he] at hed
              exact hc hed
          rw [if_neg hd, if_neg hd', ih, List.filter_cons_of_pos (by simpa using hc), List.map_cons, List.cons_append,
            lastLevel_concat]
          rfl
    | remove | sync | resetDisplay => exact ih

/-- Where no two parts share an id, the first with an id is all that there are. -/
theorem bindings_remove {r : Registry} (h : (r.bindings.map (·.peripheral.id)).Nodup) (id : Text) :
    (r.remove id).bindings = r.bindings.filter (¬ id = ·.peripheral.id) := by
  obtain ⟨bs⟩ := r
  show bs.eraseP _ = _
  induction bs with
  | nil => rfl
  | cons b bs ih =>
    rw [List.map_cons, List.nodup_cons] at h
    by_cases hb : b.peripheral.id = id
    · have others : ∀ a ∈ bs, ¬ id = a.peripheral.id := by
        intro a ha he
        exact h.1 (List.mem_map.2 ⟨a, ha, he.symm.trans hb.symm⟩)
      rw [List.eraseP_cons_of_pos (by simpa using hb), List.filter_cons_of_neg (by simpa using hb.symm),
        List.filter_eq_self.2 (by simpa using others)]
    · rw [List.eraseP_cons_of_neg (by simpa using hb), List.filter_cons_of_pos (by simpa using Ne.symm hb), ih h.2]

theorem tell_sync (pin : PinId) (l : Level) :
    (Call.sync pin l).tell = fun b => if b.peripheral.pin = pin then { b with shows := l } else b := by
  funext b
  by_cases hp : b.peripheral.pin = pin
  · simp [Call.tell, Call.shown, hp]
  · simp [Call.tell, Call.shown, hp, Ne.symm hp]

theorem filter_of_drops_none {c : Call} (h : ∀ id, ¬ c.Drops id) (bs : List Binding) :
    bs.filter (¬ c.Drops ·.peripheral.id) = bs :=
  List.filter_eq_self.2 fun b _ => decide_eq_true (h b.peripheral.id)

theorem bindings_apply {r : Registry} (h : (r.bindings.map (·.peripheral.id)).Nodup) (c : Call) :
    (r.apply c).bindings = (r.bindings.filter (¬ c.Drops ·.peripheral.id)).map c.tell ++ c.added := by
  cases c with
  | add p =>
    show (r.remove p.id).bindings ++ _ = List.map id _ ++ _
    rw [bindings_remove h, List.map_id]
    rfl
  | remove i =>
    show (r.remove i).bindings = List.map id _ ++ []
    rw [bindings_remove h, List.map_id, List.append_nil]
    rfl
  | sync pin l =>
    rw [filter_of_drops_none (fun _ => id), tell_sync]
    exact (List.append_nil _).symm
  | resetDisplay =>
    rw [filter_of_drops_none (fun _ => id)]
    exact (List.append_nil _).symm

theorem bindings_run (calls : List Call) : (({} : Registry).run calls).bindings = standing calls := by
  induction calls using List.reverseRecOn with
  | nil => rfl
  | append_singleton calls c ih =>
    have distinct : ((({} : Registry).run calls).bindings.map (·.peripheral.id)).Nodup := by
      rw [ih]
      exact nodup_standing calls
    rw [run, List.foldl_append]
    show ((({} : Registry).run calls).apply c).bindings = _
    rw [bindings_apply distinct, ih, standing_concat]

/-! ## Parts that are only added -/

theorem lastLevel_adds (pin : PinId) (ps : List Peripheral) : lastLevel pin (ps.map .add) = .low := by
  have silent : ((ps.map Call.add).reverse.takeWhile (· ≠ .resetDisplay)).findSome? (Call.level? pin) = none := by
    rw [List.findSome?_eq_none_iff]
    intro c hc
    obtain ⟨p, -, rfl⟩ := List.mem_map.1 (List.mem_reverse.1 (List.takeWhile_subset _ hc))
    rfl
  rw [lastLevel, silent]
  rfl

theorem standing_adds (ps : List Peripheral) :
    standing (ps.map .add) = (lastOfEach ps).map fun p => { peripheral := p } := by
  induction ps with
  | nil => rfl
  | cons p ps ih =>
    have dropped : (∃ c ∈ ps.map Call.add, c.Drops p.id) ↔ ∃ q ∈ ps, q.id = p.id := by
      simp [Call.Drops]
    rw [List.map_cons, standing, lastOfEach, lastLevel_adds, ih]
    simp only [dropped]
    split <;> rfl

theorem ofList_eq_run (ps : List Peripheral) : ofList ps = ({} : Registry).run (ps.map .add) := by
  rw [run, List.foldl_map]
  rfl

/-- After any calls no two parts of a registry have the same id, and its parts are those that were added and neither removed
nor replaced since, in the order of their latest adds. Each shows the level of the last sync of its pin since that add and
since the last reset, and low if there was none. Of the parts in settings the registry holds the last one with each id, in the
order of these, and all of them dark. -/
theorem registry_by_latest_add (calls : List Call) (s : Settings) :
    let r := ({} : Registry).run calls
    (r.bindings.map (·.peripheral.id)).Nodup ∧ r.bindings = standing calls ∧ (∀ b, b ∈ r.bindings ↔ Stands calls b) ∧
      s.registry.bindings = (lastOfEach s.peripherals).map fun p => { peripheral := p, shows := .low } := by
  intro r
  have hr : r.bindings = standing calls := bindings_run calls
  refine ⟨?_, hr, ?_, ?_⟩
  · rw [hr]
    exact nodup_standing calls
  · intro b
    rw [hr]
    exact mem_standing
  · rw [Settings.registry, ofList_eq_run, bindings_run, standing_adds]

-- A part that is replaced goes to the end and is dark; the other one on its pin keeps its level.
example :
    let p : Peripheral := { id := "red".toList, kind := .redLed, pin := .number 13 }
    let q : Peripheral := { id := "horn".toList, kind := .buzzer, pin := .number 13 }
    standing [.add p, .add q, .sync (.number 13) .high, .add p] =
      [{ peripheral := q, shows := .high }, { peripheral := p, shows := .low }] := by
  decide

end Registry

end Breadboard
