/-
  Breadboard.Proofs.Run.Retention — what a history keeps of all that was pushed.

  A history drops its oldest snapshots one by one until a new one has room, and counts its bytes
  beside them. What it keeps can be said without any dropping: of all that it took since it was
  cleared, the longest suffix that fits (`LongestSuffix`). The two agree because room is only ever made
  for what comes last: whatever suffix fits with the new snapshot fitted without it before.

  Proved: dropping from the front gives the longest suffix that has room
  (`Queue.longestSuffix_dropUntil`), a new item behind it makes it the longest again
  (`Queue.LongestSuffix.concat`), every push and clear keeps `History.Holds`, and so does every run of
  them (`history_keeps_longest_suffix`).
-/

import Mathlib
import Breadboard.Proofs.Run.Review

namespace Breadboard

namespace Queue

/-! ## The longest suffix within a limit -/

variable {α : Type} {weight : α → Nat} {limit : Nat} {kept came : List α} {a : α}

/-- What a list of items weighs. -/
def load (weight : α → Nat) (as : List α) : Nat := (as.map weight).sum

@[simp] theorem load_nil (weight : α → Nat) : load weight [] = 0 := rfl

@[simp] theorem load_cons (weight : α → Nat) (a : α) (as : List α) :
    load weight (a :: as) = weight a + load weight as := by simp [load]

@[simp] theorem load_append (weight : α → Nat) (as bs : List α) :
    load weight (as ++ bs) = load weight as + load weight bs := by simp [load]

/-- Of all suffixes of what came that weigh no more than the limit, the longest. -/
structure LongestSuffix (weight : α → Nat) (limit : Nat) (kept came : List α) : Prop where
  isSuffix : kept <:+ came
  fits : load weight kept ≤ limit
  longest : ∀ other, other <:+ came → load weight other ≤ limit → other <:+ kept

namespace LongestSuffix

theorem of_fits (fits : load weight came ≤ limit) : LongestSuffix weight limit came came :=
  ⟨List.suffix_refl came, fits, fun _ h _ => h⟩

/-- An item that does not fit in front of all the rest is none of what is kept. -/
theorem cons (h : LongestSuffix weight limit kept came) (big : limit < load weight (a :: came)) :
    LongestSuffix weight limit kept (a :: came) := by
  refine ⟨h.isSuffix.trans (List.suffix_cons a came), h.fits, fun other isSuffix fits => ?_⟩
  rcases List.suffix_cons_iff.1 isSuffix with rfl | isSuffix
  · omega
  · exact h.longest other isSuffix fits

/-- When room is made for one more item, what was kept so far has all that can stay with it. -/
theorem concat {left : List α} (h : LongestSuffix weight limit kept came) (fits : weight a ≤ limit)
    (room : LongestSuffix weight (limit - weight a) left kept) :
    LongestSuffix weight limit (left ++ [a]) (came ++ [a]) := by
  have hl := room.fits
  refine ⟨List.suffix_append_self_iff.2 (room.isSuffix.trans h.isSuffix), ?_, fun other isSuffix hother => ?_⟩
  · rw [load_append, load_cons, load_nil]
    omega
  · rcases List.suffix_concat_iff.1 isSuffix with rfl | ⟨before, rfl, hbefore⟩
    · exact List.nil_suffix
    · rw [load_append, load_cons, load_nil] at hother
      -- it fitted without the new item too, so it was kept, and it fits in the room that is left
      have stays : before <:+ left := room.longest before (h.longest before hbefore (by omega)) (by omega)
      exact List.suffix_append_self_iff.2 stays

end LongestSuffix

/-- Dropping from the front leaves the longest suffix that has room, and its weight. -/
theorem longestSuffix_dropUntil (weight : α → Nat) (room : Nat) (as : List α) :
    ∃ left, dropUntil weight room (load weight as) as = (load weight left, left) ∧
      LongestSuffix weight room left as := by
  induction as with
  | nil => exact ⟨[], rfl, .of_fits (Nat.zero_le room)⟩
  | cons a as ih =>
    by_cases fits : load weight (a :: as) ≤ room
    · exact ⟨a :: as, dropUntil_of_le fits _, .of_fits fits⟩
    · obtain ⟨left, hleft, longest⟩ := ih
      have rest : load weight (a :: as) - weight a = load weight as := by rw [load_cons]; omega
      refine ⟨left, ?_, longest.cons (Nat.lt_of_not_le fits)⟩
      rw [dropUntil, if_neg fits, rest, hleft]

end Queue

namespace History

open Queue

/-! ## Pushes and clears -/

inductive Event where
  | push (s : Snapshot)
  | clear
  deriving DecidableEq, Repr

def apply (h : History) : Event → History
  | .push s => h.record s
  | .clear => h.clear

def run (h : History) (events : List Event) : History := events.foldl apply h

/-- The snapshots pushed since the last clear, behind those that were pushed before. -/
def pushed (came : List Snapshot) : Event → List Snapshot
  | .push s => came ++ [s]
  | .clear => []

/-- The snapshots taken since the last clear. -/
def accepted (limit : Nat) (events : List Event) : List Snapshot :=
  (events.foldl pushed []).filter (·.size ≤ limit)

variable {h : History} {limit : Nat} {came : List Snapshot} {s : Snapshot}

theorem push_of_lt (big : h.limit < s.size) : h.push s = .error (.tooLarge s.size h.limit) := by
  rw [push, if_pos big]

/-- A push fails for no other reason than that the snapshot alone is too large. -/
theorem push_eq_error_iff : (∃ e, h.push s = .error e) ↔ h.limit < s.size := by
  constructor
  · rintro ⟨e, he⟩
    by_contra fits
    obtain ⟨h', hp, -⟩ := push_of_le (Nat.le_of_not_lt fits)
    rw [hp] at he
    cases he
  · exact fun big => ⟨_, push_of_lt big⟩

/-- The history holds the longest suffix that fits of what came, and counts its bytes right. -/
structure Holds (limit : Nat) (came : List Snapshot) (h : History) : Prop where
  limit_eq : h.limit = limit
  kept : LongestSuffix Snapshot.size limit h.snapshots came
  used : h.used = load Snapshot.size h.snapshots

namespace Holds

theorem new (limit : Nat) : Holds limit [] { limit } := ⟨rfl, .of_fits (Nat.zero_le limit), rfl⟩

theorem clear (holds : Holds limit came h) : Holds limit [] h.clear :=
  holds.limit_eq ▸ new h.limit

theorem push (holds : Holds limit came h) (fits : s.size ≤ limit) : Holds limit (came ++ [s]) (h.record s) := by
  obtain ⟨h', hp, hlimit, hs⟩ := push_of_le (h := h) (s := s) (by rw [holds.limit_eq]; exact fits)
  obtain ⟨left, hleft, room⟩ := longestSuffix_dropUntil Snapshot.size (limit - s.size) h.snapshots
  rw [holds.used, holds.limit_eq, hleft] at hs
  obtain ⟨hused, hsnapshots⟩ := Prod.mk.inj hs
  have hr : h.record s = h' := by simp only [record, hp]
  rw [hr]
  refine ⟨hlimit.trans holds.limit_eq, ?_, ?_⟩
  · rw [hsnapshots]
    exact holds.kept.concat fits room
  · rw [hused, hsnapshots, load_append, load_cons, load_nil]
    rfl

/-- One push or clear more. -/
theorem apply (holds : Holds limit (came.filter (·.size ≤ limit)) h) (e : Event) :
    Holds limit ((pushed came e).filter (·.size ≤ limit)) (h.apply e) := by
  cases e with
  | clear => exact holds.clear
  | push s =>
    by_cases fits : s.size ≤ limit
    · have : (pushed came (.push s)).filter (·.size ≤ limit) = came.filter (·.size ≤ limit) ++ [s] := by
        simp [pushed, fits]
      rw [this]
      exact holds.push fits
    · have : (pushed came (.push s)).filter (·.size ≤ limit) = came.filter (·.size ≤ limit) := by
        simp [pushed, fits]
      have refused : h.apply (.push s) = h := record_of_lt (by rw [holds.limit_eq]; omega)
      rw [this, refused]
      exact holds

theorem run (holds : Holds limit (came.filter (·.size ≤ limit)) h) (events : List Event) :
    Holds limit ((events.foldl pushed came).filter (·.size ≤ limit)) (h.run events) := by
  induction events generalizing h came with
  | nil => exact holds
  | cons e events ih => exact ih (holds.apply e)

/-- Counted from the newest, what is kept is what came. -/
theorem fromNewest? (holds : Holds limit came h) {back : Nat} (hb : back < h.size) :
    h.fromNewest? back = came.reverse[back]? := by
  obtain ⟨gone, hgone⟩ := holds.kept.isSuffix
  rw [← length_snapshots, ← List.length_reverse] at hb
  rw [← hgone, List.reverse_append, List.getElem?_append_left hb]
  rfl

end Holds

theorem fromNewest?_of_size_le {back : Nat} (hb : h.size ≤ back) : h.fromNewest? back = none := by
  rw [← length_snapshots, ← List.length_reverse] at hb
  exact List.getElem?_eq_none hb

/-- After any pushes and clears, of whatever snapshots, a history that was empty at first keeps the longest suffix of
what it took since the last clear whose bytes are within the limit, and counts just these bytes. It refuses a snapshot
if and only if that alone is over the limit, and is then as it was. Asked for the snapshot so many steps before the
newest, it gives the one that was taken there, as far as it keeps any, and none further back. -/
theorem history_keeps_longest_suffix (limit : Nat) (events : List Event) :
    let h := ({ limit } : History).run events
    let taken := accepted limit events
    LongestSuffix Snapshot.size limit h.snapshots taken ∧
      h.used = (h.snapshots.map Snapshot.size).sum ∧
      (∀ s, (∃ e, h.push s = .error e) ↔ limit < s.size) ∧
      (∀ s e, h.push s = .error e → e = .tooLarge s.size limit ∧ h.apply (.push s) = h) ∧
      ∀ back, (back < h.size → ∃ s, taken.reverse[back]? = some s ∧ h.fromNewest? back = some s) ∧
        (h.size ≤ back → h.fromNewest? back = none) := by
  intro h taken
  have holds : Holds limit taken h := (Holds.new limit).run events
  have refuses : ∀ s, (∃ e, h.push s = .error e) ↔ limit < s.size := fun s => by
    rw [push_eq_error_iff, holds.limit_eq]
  refine ⟨holds.kept, holds.used, refuses, fun s e he => ?_, fun back => ⟨fun hb => ?_, fromNewest?_of_size_le⟩⟩
  · have big : h.limit < s.size := push_eq_error_iff.1 ⟨e, he⟩
    rw [push_of_lt big, holds.limit_eq] at he
    exact ⟨(Except.error.inj he).symm, record_of_lt big⟩
  · obtain ⟨s, hs⟩ := exists_fromNewest? hb
    exact ⟨s, (holds.fromNewest? hb).symm.trans hs, hs⟩

/-- Of three snapshots that are taken after a clear, of 136, 184 and 232 bytes, 420 bytes hold the last two; one of 424 in
between is refused. -/
theorem history_keeps_longest_suffix_mixed :
    let snap (time pins : Nat) : Snapshot := { time, pins := ⟨List.replicate pins (.number 13, {})⟩ }
    let events : List Event :=
      [.push (snap 0 0), .clear, .push (snap 1 0), .push (snap 2 1), .push (snap 3 6), .push (snap 4 2)]
    let h := ({ limit := 420 } : History).run events
    accepted 420 events = [snap 1 0, snap 2 1, snap 4 2] ∧ h.snapshots = [snap 2 1, snap 4 2] ∧
      LongestSuffix Snapshot.size 420 h.snapshots (accepted 420 events) ∧ h.used = 416 ∧
      h.push (snap 3 6) = .error (.tooLarge 424 420) ∧ h.apply (.push (snap 3 6)) = h ∧
      1 < h.size ∧ h.fromNewest? 1 = some (snap 2 1) ∧ h.size ≤ 2 ∧ h.fromNewest? 2 = none := by
  intro snap events h
  obtain ⟨longest, used, -, refused, asked⟩ := history_keeps_longest_suffix 420 events
  have taken : accepted 420 events = [snap 1 0, snap 2 1, snap 4 2] := by decide
  have kept : h.snapshots = [snap 2 1, snap 4 2] := by decide
  have big : h.push (snap 3 6) = .error (.tooLarge 424 420) := by decide
  obtain ⟨-, same⟩ := refused (snap 3 6) _ big
  have two : 1 < h.size ∧ h.size ≤ 2 := by decide
  obtain ⟨s, hs, second⟩ := (asked 1).1 two.1
  rw [taken] at hs
  obtain rfl : snap 2 1 = s := Option.some.inj hs
  exact ⟨taken, kept, longest, used.trans (by rw [kept]; decide), big, same, two.1, second, two.2, (asked 2).2 two.2⟩

end History

end Breadboard
