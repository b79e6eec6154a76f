/-
  Breadboard.Run.Queue — items in the order in which they came.

  What comes is kept the newest first, and turned round when all that is older is gone, so
  that neither end is far away. `toList` is the queue from its oldest item to its newest;
  `toList_push` and `toList_dropOldest` say what becomes of it.
-/

namespace Breadboard

structure Queue (α : Type) where
  /-- The oldest items, the oldest first. -/
  older : List α := []
  /-- The items after them, the newest first. -/
  newer : List α := []
  deriving DecidableEq, Repr

namespace Queue

variable {α : Type}

def toList (q : Queue α) : List α := q.older ++ q.newer.reverse

def push (q : Queue α) (a : α) : Queue α := { q with newer := a :: q.newer }

def size (q : Queue α) : Nat := q.older.length + q.newer.length

def isEmpty (q : Queue α) : Bool := q.older.isEmpty && q.newer.isEmpty

/-- The item so many places before the newest. -/
def fromNewest? (q : Queue α) (back : Nat) : Option α := q.toList.reverse[back]?

/-- Drops the first items of a list as long as what they weigh together with all others is more than
fits. -/
def dropUntil (weight : α → Nat) (room : Nat) : Nat → List α → Nat × List α
  | load, [] => (load, [])
  | load, a :: as =>
    if load ≤ room then (load, a :: as) else dropUntil weight room (load - weight a) as

/-- Drops the oldest items until what is left weighs no more than fits. -/
def dropOldest (weight : α → Nat) (room load : Nat) (q : Queue α) : Nat × Queue α :=
  match dropUntil weight room load q.older with
  | (load, []) =>
    if load ≤ room then (load, { newer := q.newer })
    else
      let (load, older) := dropUntil weight room load q.newer.reverse
      (load, { older })
  | (load, older) => (load, { q with older })

theorem toList_push (q : Queue α) (a : α) : (q.push a).toList = q.toList ++ [a] := by
  simp [toList, push]

theorem length_toList (q : Queue α) : q.toList.length = q.size := by
  simp [toList, size]

theorem isEmpty_toList (q : Queue α) : q.toList.isEmpty = q.isEmpty := by
  rcases q with ⟨_ | ⟨a, as⟩, newer⟩ <;> simp [toList, isEmpty]

theorem dropUntil_of_le {weight : α → Nat} {room load : Nat} (h : load ≤ room) (as : List α) :
    dropUntil weight room load as = (load, as) := by
  cases as <;> simp [dropUntil, h]

/-- Dropping from a list in two parts goes on in the second when the first is used up. -/
theorem dropUntil_append (weight : α → Nat) (room load : Nat) (as bs : List α) :
    dropUntil weight room load (as ++ bs) =
      match dropUntil weight room load as with
      | (load, []) => dropUntil weight room load bs
      | (load, rest) => (load, rest ++ bs) := by
  induction as generalizing load with
  | nil => rfl
  | cons a as ih =>
    by_cases h : load ≤ room
    · simp [dropUntil, h]
    · simp [dropUntil, h, ih]

/-- Dropping the oldest items is dropping from the front of the list. -/
theorem toList_dropOldest (weight : α → Nat) (room load : Nat) (q : Queue α) :
    ((q.dropOldest weight room load).1, (q.dropOldest weight room load).2.toList) =
      dropUntil weight room load q.toList := by
  unfold toList
  rw [dropUntil_append]
  unfold dropOldest
  rcases dropUntil weight room load q.older with ⟨left, _ | ⟨a, as⟩⟩
  · by_cases h : left ≤ room
    · simp [h, dropUntil_of_le h]
    · simp [h]
  · simp

end Queue

end Breadboard
