/-
  Breadboard.Text.Numeral — decimal numbers, written and read.

  `decimal n` has no leading zero and no sign. `natural?` reads one or more ASCII digits,
  leading zeros included; `unsigned?` allows one plus in front, `integer?` one sign. A
  number out of the reader's range is refused, never wrapped. Each reader reads back what
  `decimal` and `signedDecimal` write (`natural?_decimal`).
-/

import Breadboard.Text.Basic

namespace Breadboard.Text

/-- The largest unsigned number of 32 bits. -/
def maxWord32 : Nat := 0xFFFFFFFF

/-- The largest unsigned number of 64 bits. -/
def maxWord64 : Nat := 0xFFFFFFFFFFFFFFFF

/-- The least magnitude that a positive signed number of 64 bits cannot have. -/
def signBit : Nat := 0x8000000000000000

/-- The range of signed numbers of 64 bits. -/
def isWord64 (n : Int) : Bool := -(signBit : Int) ≤ n && n < (signBit : Int)

def decimal (n : Nat) : Text := Nat.toDigits 10 n

def signedDecimal : Int → Text
  | .ofNat n => decimal n
  | .negSucc n => '-' :: decimal (n + 1)

def natural? (t : Text) : Option Nat :=
  if t ≠ [] && t.all Char.isDigit then some (Nat.ofDigitChars 10 t 0) else none

/-- Digits with an optional plus, at most `max`. -/
def unsigned? (max : Nat) : Text → Option Nat
  | '+' :: t => (natural? t).filter (· ≤ max)
  | t => (natural? t).filter (· ≤ max)

/-- Digits with an optional sign, within 64 bits. -/
def integer? : Text → Option Int
  | '-' :: t => ((natural? t).map fun n => -(n : Int)).filter isWord64
  | '+' :: t => ((natural? t).map fun n => (n : Int)).filter isWord64
  | t => ((natural? t).map fun n => (n : Int)).filter isWord64

theorem natural?_decimal (n : Nat) : natural? (decimal n) = some n := by
  have hd : (decimal n).all Char.isDigit = true := by
    rw [List.all_eq_true]
    intro c hc
    exact Nat.isDigit_of_mem_toDigits (by decide) (by decide) hc
  simp only [natural?, hd, Bool.and_true]
  simp [decimal, Nat.toDigits_ne_nil, Nat.ofDigitChars_ten_toDigits]

end Breadboard.Text
