/-
  Breadboard.Board.Pins — the pins that a sketch has used, each with its mode and level.

  A pin enters the table when it is first given a mode or written to; until then it reads
  low. Setting the mode keeps the level and writing keeps the mode. `sorted` lists the pins
  by number and then by name. `find?_update` says what every lookup answers after a change.
-/

import Breadboard.Sketch.Statement

namespace Breadboard

structure Pin where
  mode : PinMode := .unset
  level : Level := .low
  deriving DecidableEq, Repr

structure PinTable where
  /-- In the order of first use, each pin once. -/
  entries : List (PinId × Pin) := []
  deriving DecidableEq, Repr

namespace PinTable

/-- Changes the entry of a pin, which starts unset and low. -/
def updateIn (p : PinId) (f : Pin → Pin) : List (PinId × Pin) → List (PinId × Pin)
  | [] => [(p, f {})]
  | (q, a) :: rest => if q = p then (q, f a) :: rest else (q, a) :: updateIn p f rest

def update (t : PinTable) (p : PinId) (f : Pin → Pin) : PinTable := ⟨updateIn p f t.entries⟩

def setMode (t : PinTable) (p : PinId) (m : PinMode) : PinTable :=
  t.update p fun a => { a with mode := m }

def write (t : PinTable) (p : PinId) (l : Level) : PinTable :=
  t.update p fun a => { a with level := l }

def findIn? (p : PinId) : List (PinId × Pin) → Option Pin
  | [] => none
  | (q, a) :: rest => if q = p then some a else findIn? p rest

def find? (t : PinTable) (p : PinId) : Option Pin := findIn? p t.entries

def level (t : PinTable) (p : PinId) : Level := ((t.find? p).map (·.level)).getD .low

/-- Whether writing this level would change what the pin reads. -/
def changes (t : PinTable) (p : PinId) (l : Level) : Bool := t.level p ≠ l

def size (t : PinTable) : Nat := t.entries.length

def isEmpty (t : PinTable) : Bool := t.entries.isEmpty

def sorted (t : PinTable) : List (PinId × Pin) :=
  t.entries.mergeSort fun a b => a.1.le b.1

theorem findIn?_updateIn (p q : PinId) (f : Pin → Pin) (l : List (PinId × Pin)) :
    findIn? q (updateIn p f l) =
      if p = q then some (f ((findIn? p l).getD {})) else findIn? q l := by
  induction l with
  | nil => simp [updateIn, findIn?]
  | cons e l ih =>
    obtain ⟨r, a⟩ := e
    by_cases hr : r = p
    · by_cases hq : p = q <;> simp_all [updateIn, findIn?]
    · by_cases hq : r = q
      · have hp : p ≠ q := fun e => hr (hq.trans e.symm)
        simp [updateIn, findIn?, hr, if_pos hq, hp]
      · simp [updateIn, findIn?, hr, if_neg hq, ih]

theorem find?_update (t : PinTable) (p q : PinId) (f : Pin → Pin) :
    (t.update p f).find? q = if p = q then some (f ((t.find? p).getD {})) else t.find? q :=
  findIn?_updateIn p q f t.entries

end PinTable

end Breadboard
