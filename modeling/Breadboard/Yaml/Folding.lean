/-
  Breadboard.Yaml.Folding — character classes of the format, positions, and how white space
  inside a scalar is folded.

  A scalar may go on over several lines. Blanks around a line break are dropped, one break
  becomes a space and several become one less; blanks within a line stay (`Folding.text`). A
  break is a line feed, a carriage return, both together, or one of three rarer characters,
  two of which are kept as they are.
-/

import Breadboard.Yaml.Fault

namespace Breadboard.Yaml

def isSpace (c : Char) : Bool := c == ' ' || c == '\t'

def isBreak (c : Char) : Bool :=
  c == '\n' || c == '\r' || c == '\x85' || c == '\u2028' || c == '\u2029'

/-- A break as it is kept in a scalar. -/
def keptBreak (c : Char) : Char :=
  if c == '\u2028' || c == '\u2029' then c else '\n'

/-- Whether a text is at its end or goes on with a space or break. -/
def endsWord : Text → Bool
  | [] => true
  | c :: _ => isSpace c || isBreak c

/-- The characters that a document may hold. -/
def isAllowed (c : Char) : Bool :=
  let n := c.toNat
  n == 0x09 || n == 0x0A || n == 0x0D || (0x20 ≤ n && n ≤ 0x7E) || n == 0x85 ||
    (0xA0 ≤ n && n ≤ 0xD7FF) || (0xE000 ≤ n && n ≤ 0xFFFD) || 0x10000 ≤ n

/-- The mark that may stand in front of a line and is no part of it. -/
def orderMark : Char := '\ufeff'

structure Position where
  /-- How much of the document lies before it, in bytes of UTF-8. -/
  index : Nat := 0
  line : Nat := 0
  /-- In characters. -/
  column : Nat := 0
  deriving DecidableEq, Repr

namespace Position

def next (p : Position) (c : Char) : Position :=
  { p with index := p.index + c.utf8Size, column := p.column + 1 }

/-- The position behind a piece of a line. -/
def past (p : Position) (t : Text) : Position := t.foldl next p

/-- The position behind a break. -/
def newLine (p : Position) (c : Char) : Position := ⟨p.index + c.utf8Size, p.line + 1, 0⟩

end Position

/-- Whether a line begins with three dashes or dots that stand alone. -/
def atDocumentMark (p : Position) (t : Text) : Bool :=
  p.column == 0 &&
    match t with
    | '-' :: '-' :: '-' :: r => endsWord r
    | '.' :: '.' :: '.' :: r => endsWord r
    | _ => false

/-- White space met since the last character of a scalar. -/
structure Folding where
  /-- The last blank comes first. -/
  blanks : Text := []
  /-- Whether a line break was met. -/
  broken : Bool := false
  first : Option Char := none
  /-- The breaks after the first, the last one first. -/
  more : Text := []
  deriving DecidableEq, Repr

namespace Folding

def blank (f : Folding) (c : Char) : Folding :=
  if f.broken then f else { f with blanks := c :: f.blanks }

def lineBreak (f : Folding) (c : Char) : Folding :=
  if f.broken then { f with more := c :: f.more }
  else { broken := true, first := some c }

/-- What the white space contributes to the scalar. -/
def text (f : Folding) : Text :=
  if !f.broken then f.blanks.reverse
  else match f.first with
    | some '\n' => if f.more.isEmpty then [' '] else f.more.reverse
    | some c => c :: f.more.reverse
    | none => f.more.reverse

end Folding

end Breadboard.Yaml
