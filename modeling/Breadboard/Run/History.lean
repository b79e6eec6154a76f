/-
  Breadboard.Run.History — the recorded steps of a run, within a limit of memory.

  A snapshot holds what one step left, and of the serial log only a mark. Each snapshot
  counts a fixed number of bytes and so many for each pin and part. The history drops its
  oldest snapshots until a new one fits; a snapshot that would not fit alone is refused and
  changes nothing.
-/

import Breadboard.Board.Basic
import Breadboard.Run.Progress
import Breadboard.Run.Queue

namespace Breadboard

structure Snapshot where
  progress : Progress := {}
  pins : PinTable := {}
  serial : SerialMark := {}
  peripherals : Registry := {}
  line : Option Nat := none
  steps : Nat := 0
  time : Nat := 0
  deriving DecidableEq, Repr

/-- The bytes that a snapshot counts. -/
def Snapshot.size (s : Snapshot) : Nat := 136 + 48 * s.pins.size + 96 * s.peripherals.size

inductive HistoryError where
  | tooLarge (size limit : Nat)
  deriving DecidableEq, Repr

def HistoryError.message : HistoryError → Text
  | tooLarge size limit =>
    "snapshot of ".toList ++ Text.decimal size ++ " bytes exceeds the history limit of ".toList ++
      Text.decimal limit ++ " bytes".toList

structure History where
  limit : Nat
  recorded : Queue Snapshot := {}
  /-- The bytes of all snapshots together. -/
  used : Nat := 0
  deriving DecidableEq, Repr

namespace History

/-- The snapshots, the oldest first. -/
def snapshots (h : History) : List Snapshot := h.recorded.toList

def push (h : History) (s : Snapshot) : Except HistoryError History :=
  if h.limit < s.size then .error (.tooLarge s.size h.limit)
  else
    let (used, kept) := h.recorded.dropOldest Snapshot.size (h.limit - s.size) h.used
    .ok { h with recorded := kept.push s, used := used + s.size }

/-- A snapshot that fits comes behind those that are left when the oldest have made room. -/
theorem push_of_le {h : History} {s : Snapshot} (fits : s.size ≤ h.limit) :
    ∃ h', h.push s = .ok h' ∧ h'.limit = h.limit ∧
      (h'.used, h'.snapshots) =
        match Queue.dropUntil Snapshot.size (h.limit - s.size) h.used h.snapshots with
        | (used, kept) => (used + s.size, kept ++ [s]) := by
  have room := Queue.toList_dropOldest Snapshot.size (h.limit - s.size) h.used h.recorded
  simp only [push, if_neg (Nat.not_lt.mpr fits), snapshots, ← room]
  rcases h.recorded.dropOldest Snapshot.size (h.limit - s.size) h.used with ⟨used, kept⟩
  exact ⟨_, rfl, rfl, by simp [Queue.toList_push]⟩

/-- The history with the snapshot, or as it was if the snapshot is too large. -/
def record (h : History) (s : Snapshot) : History :=
  match h.push s with
  | .ok h' => h'
  | .error _ => h

def clear (h : History) : History := { limit := h.limit }

def size (h : History) : Nat := h.recorded.size

def isEmpty (h : History) : Bool := h.recorded.isEmpty

/-- The snapshot so many steps behind the newest, whatever number that is. In a word of 64 bits the last value
has no `back + 1`; no history goes back so far, and no review asks for it. -/
def fromNewest? (h : History) (back : Nat) : Option Snapshot := h.recorded.fromNewest? back

end History

end Breadboard
