/-
  Breadboard.Yaml.Quoted — scalars in quotes and plain scalars.

  In single quotes a quote is written twice and all else stands for itself; in double quotes
  a backslash begins an escape. A plain scalar ends before a colon that a space follows,
  before a comment, at a lesser indentation, and in a flow collection before its
  punctuation. All three fold white space over line ends.
-/

import Breadboard.Yaml.Folding

namespace Breadboard.Yaml

/-- A scalar that was read, with the rest of the text. -/
structure Scanned where
  text : Text
  /-- Whether the scalar is followed by a line break. -/
  broken : Bool
  position : Position
  rest : Text

/-! ## Quoted scalars -/

def singleQuoted (acc : Text) (f : Folding) (p : Position) : Text → Except Fault Scanned
  | [] => .error .unclosedQuote
  | c :: t =>
    if c = '\r' ∧ t.head? = some '\n' then singleQuoted acc f (p.next c) t
    else if isBreak c then singleQuoted acc (f.lineBreak (keptBreak c)) (p.newLine c) t
    else if isSpace c then singleQuoted acc (f.blank c) (p.next c) t
    else if atDocumentMark p (c :: t) then .error .documentMarkInQuote
    else
      let acc := f.text.reverse ++ acc
      if c = '\'' then
        match t with
        | '\'' :: t => singleQuoted ('\'' :: acc) {} ((p.next c).next c) t
        | _ => .ok ⟨acc.reverse, false, p.next c, t⟩
      else singleQuoted (c :: acc) {} (p.next c) t

/-- What a backslash and this character stand for. -/
def escapeOf? : Char → Option Char
  | '0' => some '\x00'
  | 'a' => some '\x07'
  | 'b' => some '\x08'
  | 't' | '\t' => some '\t'
  | 'n' => some '\n'
  | 'v' => some '\x0b'
  | 'f' => some '\x0c'
  | 'r' => some '\r'
  | 'e' => some '\x1b'
  | ' ' => some ' '
  | '"' => some '"'
  | '/' => some '/'
  | '\\' => some '\\'
  | 'N' => some '\x85'
  | '_' => some '\xa0'
  | 'L' => some '\u2028'
  | 'P' => some '\u2029'
  | _ => none

/-- How many hexadecimal digits follow a backslash and this character. -/
def escapeDigits? : Char → Option Nat
  | 'x' => some 2
  | 'u' => some 4
  | 'U' => some 8
  | _ => none

def hexValue? (c : Char) : Option Nat :=
  if c.isDigit then some (c.toNat - '0'.toNat)
  else if 'a' ≤ c ∧ c ≤ 'f' then some (c.toNat - 'a'.toNat + 10)
  else if 'A' ≤ c ∧ c ≤ 'F' then some (c.toNat - 'A'.toNat + 10)
  else none

/-- Where a reader of double quotes stands. -/
inductive Escape where
  | none
  | begun
  /-- So many hexadecimal digits are to come, after digits of this value. -/
  | digits (left value : Nat)
  deriving DecidableEq, Repr

def doubleQuoted (e : Escape) (acc : Text) (f : Folding) (p : Position) :
    Text → Except Fault Scanned
  | [] => .error .unclosedQuote
  | c :: t =>
    match e with
    | .digits left value =>
      match hexValue? c with
      | none => .error .unknownEscape
      | some d =>
        let value := value * 16 + d
        if 1 < left then doubleQuoted (.digits (left - 1) value) acc {} (p.next c) t
        else if value.isValidChar then
          doubleQuoted .none (Char.ofNat value :: acc) {} (p.next c) t
        else .error .unknownEscape
    | .begun =>
      if c = '\r' ∧ t.head? = some '\n' then doubleQuoted .begun acc f (p.next c) t
      else if isBreak c then doubleQuoted .none acc { broken := true } (p.newLine c) t
      else
        match escapeDigits? c with
        | some n => doubleQuoted (.digits n 0) acc {} (p.next c) t
        | none =>
          match escapeOf? c with
          | some d => doubleQuoted .none (d :: acc) {} (p.next c) t
          | none => .error .unknownEscape
    | .none =>
      if c = '\r' ∧ t.head? = some '\n' then doubleQuoted .none acc f (p.next c) t
      else if isBreak c then doubleQuoted .none acc (f.lineBreak (keptBreak c)) (p.newLine c) t
      else if isSpace c then doubleQuoted .none acc (f.blank c) (p.next c) t
      else if atDocumentMark p (c :: t) then .error .documentMarkInQuote
      else
        let acc := f.text.reverse ++ acc
        if c = '"' then .ok ⟨acc.reverse, false, p.next c, t⟩
        else if c = '\\' then doubleQuoted .begun acc {} (p.next c) t
        else doubleQuoted .none (c :: acc) {} (p.next c) t

/-! ## Plain scalars -/

def isFlowMark (c : Char) : Bool :=
  c == ',' || c == '[' || c == ']' || c == '{' || c == '}'

/-- Reads on in a plain scalar. `indent` is the least column at which it may go on. -/
def plain (inFlow : Bool) (indent : Nat) (acc : Text) (f : Folding) (p : Position) :
    Text → Except Fault Scanned
  | [] => .ok ⟨acc.reverse, f.broken, p, []⟩
  | c :: t =>
    if c = '\r' ∧ t.head? = some '\n' then plain inFlow indent acc f (p.next c) t
    else if isBreak c then plain inFlow indent acc (f.lineBreak (keptBreak c)) (p.newLine c) t
    else if isSpace c then
      if f.broken && p.column < indent && c == '\t' then .error .tabInIndentation
      else plain inFlow indent acc (f.blank c) (p.next c) t
    else
      let spaced := f.broken || !f.blanks.isEmpty
      let left := spaced &&
        ((!inFlow && p.column < indent) || atDocumentMark p (c :: t) || c == '#')
      if !left && inFlow && c == ':' && (t.head?.any fun d => isFlowMark d || d == '?') then
        .error .strayColon
      else if left || (c == ':' && endsWord t) || (inFlow && isFlowMark c) then
        .ok ⟨acc.reverse, f.broken, p, c :: t⟩
      else plain inFlow indent (c :: (f.text.reverse ++ acc)) {} (p.next c) t

end Breadboard.Yaml
