/-
  Breadboard.Pane.Highlight — a source line in pieces of one kind each.

  The line is read once from left to right. A comment takes the rest of the line, a string
  goes to its closing quote or the end of the line, a word is as long a run as can be of
  letters, numbers, underscores and points, and every other character is a piece of its own.
  A word right before a comment or a string is not looked up. The pieces put together are
  the line (`text_pieces`).
-/

import Breadboard.Screen.Theme
import Breadboard.Screen.Grid
import Breadboard.Sketch.Zone
import Breadboard.Text.Letter

namespace Breadboard.Pane

open Screen

inductive PieceKind where
  | comment
  | string
  | typeName
  | keyword
  | constant
  | callee
  | word
  /-- A word that was not looked up. -/
  | rawWord
  | bracket
  | mark
  deriving DecidableEq, Repr

structure Piece where
  kind : PieceKind
  text : Text
  deriving DecidableEq, Repr

namespace Piece

def isWordChar (c : Char) : Bool := Text.isLetterOrNumber c || c == '_' || c == '.'

def isBracket (c : Char) : Bool := "\x7b\x7d()[]".toList.contains c

def typeNames : List Text :=
  ["void", "int", "long", "unsigned", "bool", "byte", "char", "float"].map (·.toList)

def keywords : List Text := ["if", "else", "while", "for", "return", "const"].map (·.toList)

def constants : List Text :=
  ["HIGH", "LOW", "INPUT", "OUTPUT", "INPUT_PULLUP", "LED_BUILTIN", "true", "false"].map (·.toList)

/-- The kind of a word; `called` says that an opening parenthesis follows. -/
def wordKind (w : Text) (called : Bool) : PieceKind :=
  if typeNames.any (· = w) then .typeName
  else if keywords.any (· = w) then .keyword
  else if constants.any (· = w) || w.all Char.isDigit then .constant
  else if called then .callee
  else .word

/-- The word read so far, if there is one. -/
def flush (w : Text) (kind : PieceKind) : List Piece :=
  if w.isEmpty then [] else [⟨kind, w.reverse⟩]

/-- Where the reader stands: in code with a word begun, or in a string. What was read of the piece
is kept backwards. -/
inductive Place where
  | code (word : Text)
  | string (zone : Zone) (read : Text)
  deriving DecidableEq, Repr

/-- Whether a comment begins with this character. -/
def beginsComment (c : Char) (t : Text) : Bool :=
  c == '/' && (t.head? == some '/' || t.head? == some '*')

def pieces : Place → Text → List Piece
  | .code w, [] => flush w (wordKind w.reverse false)
  | .string _ s, [] => [⟨.string, s.reverse⟩]
  | .code w, c :: t =>
    if beginsComment c t then flush w .rawWord ++ [⟨.comment, c :: t⟩]
    else if c = '"' then flush w .rawWord ++ pieces (.string .string [c]) t
    else if isWordChar c then pieces (.code (c :: w)) t
    else
      flush w (wordKind w.reverse (c == '(')) ++
        ⟨if isBracket c then .bracket else .mark, [c]⟩ :: pieces (.code []) t
  | .string z s, c :: t =>
    match z.next c with
    | .code => ⟨.string, (c :: s).reverse⟩ :: pieces (.code []) t
    | z => pieces (.string z (c :: s)) t

/-- The pieces of a line. -/
def ofLine (line : Text) : List Piece := pieces (.code []) line

/-- What was read of a piece that is not finished. -/
def Place.read : Place → Text
  | code w => w.reverse
  | string _ s => s.reverse

theorem text_flush (w : Text) (kind : PieceKind) :
    (flush w kind).flatMap (·.text) = w.reverse := by
  unfold flush
  cases w <;> simp

theorem text_pieces (p : Place) (t : Text) : (pieces p t).flatMap (·.text) = p.read ++ t := by
  induction t generalizing p with
  | nil => cases p <;> simp [pieces, text_flush, Place.read]
  | cons c t ih =>
    cases p with
    | code w =>
      rw [pieces]
      split
      · simp [text_flush, Place.read]
      split
      · simp [text_flush, ih, Place.read]
      split
      · simp [ih, Place.read]
      · simp [text_flush, ih, Place.read]
    | string z s =>
      rw [pieces]
      split
      · simp [ih, Place.read]
      · simp [ih, Place.read]

theorem text_ofLine (line : Text) : (ofLine line).flatMap (·.text) = line :=
  text_pieces _ _

end Piece

/-- How a kind of piece is drawn. -/
def PieceKind.style : PieceKind → Style
  | .comment => .ofFg Theme.grey
  | .string => .ofFg Theme.orange
  | .typeName => .ofFg Theme.teal
  | .keyword => { fg := some Theme.blue, bold := true }
  | .constant => .ofFg Theme.orange
  | .callee => .ofFg Theme.yellow
  | .word => .ofFg Theme.text
  | .rawWord => {}
  | .bracket => .ofFg Theme.blue
  | .mark => .ofFg Theme.text

end Breadboard.Pane
