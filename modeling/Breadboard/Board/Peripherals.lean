/-
  Breadboard.Board.Peripherals — the parts that are wired to pins and show their level.

  A registry holds its parts in the order in which they were added and each id once: adding
  a part whose id is there already removes the old one, and the new part goes to the end,
  showing low. `sync` tells every part on a pin the level it now shows.
-/

import Breadboard.Sketch.Statement

namespace Breadboard

inductive PeripheralKind where
  | redLed
  | greenLed
  | yellowLed
  | blueLed
  | buzzer
  deriving DecidableEq, Repr

def PeripheralKind.label : PeripheralKind → Text
  | redLed => "red LED".toList
  | greenLed => "green LED".toList
  | yellowLed => "yellow LED".toList
  | blueLed => "blue LED".toList
  | buzzer => "buzzer".toList

/-- The word for a kind in settings. -/
def PeripheralKind.word : PeripheralKind → Text
  | redLed => "red_led".toList
  | greenLed => "green_led".toList
  | yellowLed => "yellow_led".toList
  | blueLed => "blue_led".toList
  | buzzer => "buzzer".toList

def PeripheralKind.all : List PeripheralKind := [redLed, greenLed, yellowLed, blueLed, buzzer]

structure Peripheral where
  id : Text
  kind : PeripheralKind
  pin : PinId
  /-- Column and row on the board. -/
  position : Nat × Nat := (0, 0)
  deriving DecidableEq, Repr

structure Binding where
  peripheral : Peripheral
  shows : Level := .low
  deriving DecidableEq, Repr

def Binding.isActive (b : Binding) : Bool := b.shows.isHigh

structure Registry where
  bindings : List Binding := []
  deriving DecidableEq, Repr

namespace Registry

def find? (r : Registry) (id : Text) : Option Binding :=
  r.bindings.find? (·.peripheral.id = id)

def remove (r : Registry) (id : Text) : Registry :=
  ⟨r.bindings.eraseP (·.peripheral.id = id)⟩

def add (r : Registry) (p : Peripheral) : Registry :=
  ⟨(r.remove p.id).bindings ++ [{ peripheral := p }]⟩

def ofList (ps : List Peripheral) : Registry := ps.foldl add {}

/-- Every part on the pin shows the level. -/
def sync (r : Registry) (pin : PinId) (l : Level) : Registry :=
  ⟨r.bindings.map fun b => if b.peripheral.pin = pin then { b with shows := l } else b⟩

def onPin (r : Registry) (pin : PinId) : List Binding :=
  r.bindings.filter (·.peripheral.pin = pin)

/-- Every part shows low. -/
def resetDisplay (r : Registry) : Registry :=
  ⟨r.bindings.map fun b => { b with shows := .low }⟩

def size (r : Registry) : Nat := r.bindings.length

def isEmpty (r : Registry) : Bool := r.bindings.isEmpty

end Registry

end Breadboard
