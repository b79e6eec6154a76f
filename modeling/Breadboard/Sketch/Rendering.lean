/-
  Breadboard.Sketch.Rendering — statements and sketches as text.

  A statement is written as one call on a line of its own, with a semicolon. A sketch has
  its setup and then its loop, each between the braces of a function; the opening brace
  stands on the line of the signature or on the next. A statement has such a line only if
  its values can be written (`Statement.IsWritable`): a mode that is set, a name that is no
  number and not taken, numbers in their ranges.
-/

import Breadboard.Sketch.Call

namespace Breadboard

namespace Sketch

/-- A name that stands for itself as a pin. -/
def IsPinName (t : Text) : Prop := isIdentifier t = true ∧ t ≠ builtinName

def quoted (t : Text) : Text := '"' :: escape t ++ ['"']

/-- A call with its arguments, as a statement. -/
def callLine (f : Callee) (args : List Text) : Text :=
  f.name ++ ['('] ++ List.intercalate ", ".toList args ++ ");".toList

end Sketch

def PinId.IsWritable : PinId → Prop
  | number n => Text.isWord64 n = true
  | named name => Sketch.IsPinName name

def Statement.IsWritable : Statement → Prop
  | mode pin m => pin.IsWritable ∧ m ≠ .unset
  | write pin _ => pin.IsWritable
  | delay d => d ≤ Text.maxWord64
  | begin baud => baud ≤ Text.maxWord32
  | print _ _ => True
  | unrecognized => False

open Sketch in
/-- The line of a statement; there is none for one that is not recognized. -/
def Statement.render : Statement → Text
  | mode pin m => callLine .pinMode [pin.text, m.word]
  | write pin l => callLine .digitalWrite [pin.text, l.word]
  | delay d => callLine .delay [Text.decimal d]
  | begin baud => callLine .serialBegin [Text.decimal baud]
  | print text false => callLine .serialPrint [quoted text]
  | print text true => callLine .serialPrintln [quoted text]
  | unrecognized => []

namespace Sketch

/-- Where the opening brace of a block stands. -/
inductive BraceStyle where
  | sameLine
  | ownLine
  deriving DecidableEq, Repr

def signatureOf : Block → Text
  | .setup => "void setup()".toList
  | .loop => "void loop()".toList

def header (b : Block) : BraceStyle → List Text
  | .sameLine => [signatureOf b ++ " \x7b".toList]
  | .ownLine => [signatureOf b, "\x7b".toList]

def blockLines (b : Block) (style : BraceStyle) (statements : List Statement) : List Text :=
  header b style ++ statements.map Statement.render ++ ["\x7d".toList]

/-- The text of a sketch with these statements, one line for each. -/
def render (style : Block → BraceStyle) (statements : Block → List Statement) : Text :=
  (blockLines .setup (style .setup) (statements .setup) ++
    blockLines .loop (style .loop) (statements .loop)).flatMap (· ++ ['\n'])

end Sketch

end Breadboard
