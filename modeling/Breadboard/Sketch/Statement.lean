/-
  Breadboard.Sketch.Statement — the statements of a sketch and the program they form.

  A sketch has two blocks: `setup` runs once, `loop` is repeated. Each kept source line is a
  node: the statement it denotes, its text and its line number. A line inside a block that
  denotes no known statement is kept as `unrecognized`, so that nodes and source lines stay
  aligned.
-/

import Breadboard.Text.Numeral

namespace Breadboard

/-- A pin is known by its number or by a name that the sketch uses for it. -/
inductive PinId where
  | number (n : Int)
  | named (name : Text)
  deriving DecidableEq, Repr, Inhabited

inductive PinMode where
  | unset
  | input
  | inputPullup
  | output
  deriving DecidableEq, Repr, Inhabited

inductive Level where
  | low
  | high
  deriving DecidableEq, Repr, Inhabited

inductive Statement where
  | mode (pin : PinId) (mode : PinMode)
  | write (pin : PinId) (level : Level)
  /-- A pause of so many milliseconds. -/
  | delay (duration : Nat)
  | begin (baud : Nat)
  | print (text : Text) (newline : Bool)
  | unrecognized
  deriving DecidableEq, Repr, Inhabited

structure Node where
  statement : Statement
  text : Text
  /-- Counted from one. -/
  line : Nat
  deriving DecidableEq, Repr

inductive Block where
  | setup
  | loop
  deriving DecidableEq, Repr

structure Program where
  setup : List Node := []
  loop : List Node := []
  deriving DecidableEq, Repr, Inhabited

namespace PinId

/-- Numbers come before names; names are ordered by their characters' code points. -/
def le : PinId → PinId → Bool
  | number a, number b => a ≤ b
  | number _, named _ => true
  | named _, number _ => false
  | named a, named b => a.le b

def text : PinId → Text
  | number n => Text.signedDecimal n
  | named name => name

end PinId

namespace PinMode

/-- An unset mode shows as a dash and has no spelling in a sketch. -/
def word : PinMode → Text
  | unset => "-".toList
  | input => "INPUT".toList
  | inputPullup => "INPUT_PULLUP".toList
  | output => "OUTPUT".toList

end PinMode

namespace Level

def word : Level → Text
  | low => "LOW".toList
  | high => "HIGH".toList

def isHigh : Level → Bool
  | low => false
  | high => true

end Level

namespace Program

def block (p : Program) : Block → List Node
  | .setup => p.setup
  | .loop => p.loop

def isEmpty (p : Program) : Bool := p.setup.isEmpty && p.loop.isEmpty

def unrecognizedCount (p : Program) : Nat :=
  (p.setup ++ p.loop).countP (·.statement = .unrecognized)

/-- The program with one more node in front of a block. -/
def cons (b : Block) (n : Node) (p : Program) : Program :=
  match b with
  | .setup => { p with setup := n :: p.setup }
  | .loop => { p with loop := n :: p.loop }

end Program

end Breadboard
