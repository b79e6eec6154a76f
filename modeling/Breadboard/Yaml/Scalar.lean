/-
  Breadboard.Yaml.Scalar — what a plain scalar stands for.

  A plain scalar may be null, a truth value, an integer, a float or else a text; a quoted
  one is always a text. Integers are decimal or begin with `0x`, `0o` or `0b`; a decimal
  with leading zeros is a text. Floats are decimals with a point or exponent, and the words
  for infinity and not-a-number; one that is too large for a double is a text.
-/

import Breadboard.Text.Numeral

namespace Breadboard.Yaml

/-- The value of digits in a base. -/
def digitsIn? (base : Nat) (t : Text) : Option Nat :=
  let digit (c : Char) : Nat :=
    if c.isDigit then c.toNat - '0'.toNat
    else if 'a' ≤ c ∧ c ≤ 'f' then c.toNat - 'a'.toNat + 10
    else if 'A' ≤ c ∧ c ≤ 'F' then c.toNat - 'A'.toNat + 10
    else base
  if t ≠ [] && t.all (digit · < base) then
    some (t.foldl (fun n c => n * base + digit c) 0)
  else none

def dropSign : Text → Text
  | '+' :: t => t
  | '-' :: t => t
  | t => t

/-- More than one digit, the first a zero: no number. -/
def isPadded (t : Text) : Bool :=
  match dropSign t with
  | '0' :: d :: r => (d :: r).all Char.isDigit
  | _ => false

/-- The magnitude of an integer without sign. -/
def magnitude? (t : Text) : Option Nat :=
  match t with
  | '0' :: 'x' :: r => digitsIn? 16 r
  | '0' :: 'o' :: r => digitsIn? 8 r
  | '0' :: 'b' :: r => digitsIn? 2 r
  | _ => digitsIn? 10 t

/-- The integer without minus that a plain scalar stands for. -/
def unsignedOf? (t : Text) : Option Nat :=
  if isPadded t then none
  else match t with
    | '+' :: r => magnitude? r
    | _ => magnitude? t

/-- The integer that a plain scalar stands for. -/
def integerOf? (t : Text) : Option Int :=
  match t with
  | '-' :: r => if isPadded t then none else (magnitude? r).map fun n => -(n : Int)
  | _ => (unsignedOf? t).map fun n => (n : Int)

def isNullWord (t : Text) : Bool :=
  ["null", "Null", "NULL", "~"].any (·.toList = t)

def truthOf? (t : Text) : Option Bool :=
  if ["true", "True", "TRUE"].any (·.toList = t) then some true
  else if ["false", "False", "FALSE"].any (·.toList = t) then some false
  else none

/-! ## Floats -/

/-- A decimal number: the value of its digits times a power of ten. -/
structure DecimalFloat where
  digits : Nat
  exponent : Int
  deriving DecidableEq, Repr

def exponentOf? : Text → Option Int
  | '-' :: t => (Text.natural? t).map fun n => -(n : Int)
  | '+' :: t => (Text.natural? t).map fun n => (n : Int)
  | t => (Text.natural? t).map fun n => (n : Int)

/-- Reads digits with at most one point, at least one digit, and an optional exponent. -/
def decimalFloat? (t : Text) : Option DecimalFloat := do
  let whole := t.takeWhile Char.isDigit
  let rest := t.dropWhile Char.isDigit
  let (fraction, rest) := match rest with
    | '.' :: r => (r.takeWhile Char.isDigit, r.dropWhile Char.isDigit)
    | r => ([], r)
  let digits ← digitsIn? 10 (whole ++ fraction)
  let exponent ← match rest with
    | [] => some 0
    | c :: r => if c = 'e' ∨ c = 'E' then exponentOf? r else none
  return ⟨digits, exponent - fraction.length⟩

/-- The first magnitude that no longer rounds to a finite double. -/
def doubleBound : Nat := Nat.pow 2 1024 - Nat.pow 2 970

/-- Whether a decimal number rounds to a finite double. Large exponents are judged without
computing the power: a whole number with more than 400 digits is out of range. -/
def DecimalFloat.isFinite (f : DecimalFloat) : Bool :=
  if f.digits = 0 then true
  else match f.exponent with
    | .ofNat e => e ≤ 400 && f.digits * Nat.pow 10 e < doubleBound
    | .negSucc e =>
      let size := (Text.decimal f.digits).length
      size ≤ e + 1 ||
        (if size ≤ 400 + (e + 1) then f.digits < doubleBound * Nat.pow 10 (e + 1) else false)

/-- Whether a plain scalar that is no integer stands for a float. -/
def isFloat (t : Text) : Bool :=
  let isInfinity (t : Text) : Bool := [".inf", ".Inf", ".INF"].any (·.toList = t)
  let unsigned := match t with
    | '+' :: r => r
    | _ => t
  let bare := match t with
    | '+' :: r => r
    | '-' :: r => r
    | _ => t
  isInfinity unsigned ||
    (match t with
      | '-' :: r => isInfinity r
      | _ => false) ||
    [".nan", ".NaN", ".NAN"].any (·.toList = t) ||
    (!isPadded t && (decimalFloat? bare).any (·.isFinite))

end Breadboard.Yaml
