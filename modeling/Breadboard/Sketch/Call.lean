/-
  Breadboard.Sketch.Call — the statement that a line of code denotes.

  A statement is a call: a name, its arguments in parentheses, and perhaps a semicolon. The
  name ends at the first opening parenthesis and the arguments at the last character, which
  must be a closing one; arguments are split at the commas outside strings.
  `Statement.ofLine` is `unrecognized` for everything that is not a call of a known function
  with arguments it takes.
-/

import Breadboard.Sketch.Comment
import Breadboard.Sketch.Literal

namespace Breadboard

namespace Sketch

inductive Callee where
  | pinMode
  | digitalWrite
  | delay
  | delayMicroseconds
  | serialBegin
  | serialPrint
  | serialPrintln
  deriving DecidableEq, Repr

def Callee.name : Callee → Text
  | pinMode => "pinMode".toList
  | digitalWrite => "digitalWrite".toList
  | delay => "delay".toList
  | delayMicroseconds => "delayMicroseconds".toList
  | serialBegin => "Serial.begin".toList
  | serialPrint => "Serial.print".toList
  | serialPrintln => "Serial.println".toList

def Callee.all : List Callee :=
  [pinMode, digitalWrite, delay, delayMicroseconds, serialBegin, serialPrint, serialPrintln]

def Callee.ofName? (t : Text) : Option Callee := Callee.all.find? (·.name = t)

/-- The arguments between the parentheses: none if there is only blank text, and no
reading at all if a string literal is left open. -/
def arguments? (inner : Text) : Option (List Text) :=
  if Text.allBlank inner then some []
  else if Zone.after .code inner = .code then
    some ((Zone.codePieces ',' .code inner).map Text.trim)
  else none

/-- The called name and its arguments. -/
def call? (code : Text) : Option (Text × List Text) := do
  let (before, rest) ← Text.cut ['('] code
  let inner ← Text.dropSuffix? [')'] rest
  let name := Text.trim before
  if name.isEmpty then none
  else do
    let args ← arguments? inner
    pure (name, args)

/-- Microseconds as milliseconds, rounded up. -/
def ceilMillis (us : Nat) : Nat := (us + 999) / 1000

/-- The statement that a call denotes, if the arguments suit the function. -/
def Callee.denote? : Callee → List Text → Option Statement
  | pinMode, [pin, mode] => do return .mode (← pin? pin) (← mode? mode)
  | digitalWrite, [pin, level] => do return .write (← pin? pin) (← level? level)
  | delay, [ms] => do return .delay (← size? ms)
  | delayMicroseconds, [us] => do return .delay (ceilMillis (← size? us))
  | serialBegin, [baud] => do return .begin (← (size? baud).filter (· ≤ Text.maxWord32))
  | serialPrint, [arg] => do return .print (← printable? arg) false
  | serialPrintln, [] => some (.print [] true)
  | serialPrintln, [arg] => do return .print (← printable? arg) true
  | _, _ => none

/-- The code of a line: no comment, no blanks around it, no semicolon at its end. -/
def bareCode (line : Text) : Text :=
  let code := Text.trim (uncommentTail line)
  match Text.dropSuffix? [';'] code with
  | some code => Text.trimEnd code
  | none => code

end Sketch

open Sketch in
def Statement.ofLine? (line : Text) : Option Statement := do
  let (name, args) ← call? (bareCode line)
  (← Callee.ofName? name).denote? args

def Statement.ofLine (line : Text) : Statement :=
  (Statement.ofLine? line).getD .unrecognized

end Breadboard
