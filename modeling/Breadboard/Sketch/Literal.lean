/-
  Breadboard.Sketch.Literal — the arguments a call may have, as written and as read.

  A pin is a signed number of 64 bits, `LED_BUILTIN`, or an identifier. A level is `HIGH`,
  `1` or `true`, or `LOW`, `0` or `false`. An unsigned number may end in letters U and L. A
  printed argument is one quoted string or a signed number. `escape` and `unescape?` are the
  two directions of the text inside quotes (`unescape?_escape`).
-/

import Breadboard.Sketch.Statement

namespace Breadboard.Sketch

/-- The number that `LED_BUILTIN` stands for. -/
def builtinLed : Int := 13

def builtinName : Text := "LED_BUILTIN".toList

def isNameStart (c : Char) : Bool := c.isAlpha || c == '_'

def isNameChar (c : Char) : Bool := c.isAlphanum || c == '_'

/-- A letter or underscore, then letters, digits and underscores, all of them ASCII. -/
def isIdentifier : Text → Bool
  | [] => false
  | c :: t => isNameStart c && t.all isNameChar

def pin? (t : Text) : Option PinId :=
  match Text.integer? t with
  | some n => some (.number n)
  | none =>
    if t = builtinName then some (.number builtinLed)
    else if isIdentifier t then some (.named t)
    else none

def mode? (t : Text) : Option PinMode :=
  [PinMode.input, .inputPullup, .output].find? (·.word = t)

/-- The spellings of a level, the canonical one first. -/
def levelWords : Level → List Text
  | .low => ["LOW".toList, "0".toList, "false".toList]
  | .high => ["HIGH".toList, "1".toList, "true".toList]

def level? (t : Text) : Option Level :=
  [Level.low, .high].find? (t ∈ levelWords ·)

def isSizeLetter (c : Char) : Bool := c == 'u' || c == 'U' || c == 'l' || c == 'L'

def dropSizeLetters (t : Text) : Text := (t.reverse.dropWhile isSizeLetter).reverse

/-- Digits, then any number of letters U and L, within 64 bits. -/
def size? (t : Text) : Option Nat :=
  (Text.natural? (dropSizeLetters t)).filter (· ≤ Text.maxWord64)

/-- What a backslash and this character stand for; of an unknown escape both are kept. -/
def escaped : Char → Text
  | 'n' => ['\n']
  | 't' => ['\t']
  | '\\' => ['\\']
  | '"' => ['"']
  | c => ['\\', c]

/-- The text that the inside of a string literal denotes; a bare quote or a backslash at the
end is refused. -/
def unescape? : Text → Option Text
  | [] => some []
  | ['\\'] => none
  | '\\' :: c :: t => (unescape? t).map (escaped c ++ ·)
  | '"' :: _ => none
  | c :: t => (unescape? t).map (c :: ·)

def escapeChar : Char → Text
  | '\n' => ['\\', 'n']
  | '\t' => ['\\', 't']
  | '\\' => ['\\', '\\']
  | '"' => ['\\', '"']
  | c => [c]

def escape (t : Text) : Text := t.flatMap escapeChar

def quoted? (t : Text) : Option Text :=
  match t with
  | '"' :: rest => Text.dropSuffix? ['"'] rest
  | _ => none

/-- A quoted string, or a number, which prints without plus and leading zeros. -/
def printable? (t : Text) : Option Text :=
  match quoted? t with
  | some body => unescape? body
  | none => (Text.integer? t).map Text.signedDecimal

theorem unescape?_escape (t : Text) : unescape? (escape t) = some t := by
  induction t with
  | nil => rfl
  | cons c t ih =>
    have hs : escape (c :: t) = escapeChar c ++ escape t := rfl
    by_cases h1 : c = '\n'
    · subst h1; rw [hs]; simp [escapeChar, unescape?, ih, escaped]
    by_cases h2 : c = '\t'
    · subst h2; rw [hs]; simp [escapeChar, unescape?, ih, escaped]
    by_cases h3 : c = '\\'
    · subst h3; rw [hs]; simp [escapeChar, unescape?, ih, escaped]
    by_cases h4 : c = '"'
    · subst h4; rw [hs]; simp [escapeChar, unescape?, ih, escaped]
    have he : escapeChar c = [c] := by simp [escapeChar]
    rw [hs, he, List.singleton_append, unescape?, ih] <;> simp_all

end Breadboard.Sketch
