/-
  Breadboard.Sketch.Zone — which characters of a line stand inside a string literal.

  A line is read in one of three zones: in code, in a string literal, or right after a
  backslash in one. Every rule about a line that must not look into strings is a scan that
  carries the zone: `cutCode` (first occurrence of a mark in code), `codePieces` (split at a
  separator in code), `outline` (the line without its string contents) and `netBraces`
  (opening less closing braces in code).
-/

import Breadboard.Text.Lines

namespace Breadboard

inductive Zone where
  | code
  | string
  /-- After a backslash in a string: the next character has no meaning of its own. -/
  | escape
  deriving DecidableEq, Repr

namespace Zone

def next : Zone → Char → Zone
  | code, '"' => string
  | code, _ => code
  | string, '\\' => escape
  | string, '"' => code
  | string, _ => string
  | escape, _ => string

/-- The zone after a text. -/
def after (z : Zone) (t : Text) : Zone := t.foldl next z

/-- The text around the first occurrence of `pat` that begins in code. -/
def cutCode (pat : Text) : Zone → Text → Option (Text × Text)
  | _, [] => none
  | z, c :: t =>
    match if z = code then Text.dropPrefix? pat (c :: t) else none with
    | some rest => some ([], rest)
    | none => (cutCode pat (z.next c) t).map fun (before, rest) => (c :: before, rest)

/-- The pieces between the separators that stand in code. -/
def codePieces (sep : Char) : Zone → Text → List Text
  | _, [] => [[]]
  | z, c :: t =>
    if z = code ∧ c = sep then [] :: codePieces sep code t
    else Text.consFirst c (codePieces sep (z.next c) t)

/-- The text without what stands between the quotes of its strings. -/
def outline : Zone → Text → Text
  | _, [] => []
  | z, c :: t =>
    if z = code ∨ (z = string ∧ c = '"') then c :: outline (z.next c) t
    else outline (z.next c) t

def braceValue : Char → Int
  | '{' => 1
  | '}' => -1
  | _ => 0

/-- Opening less closing braces in code, a whole number of any size. A count of 32 bits would differ from it from
2 ^ 31 braces on. -/
def netBraces : Zone → Text → Int
  | _, [] => 0
  | z, c :: t => (if z = code then braceValue c else 0) + netBraces (z.next c) t

theorem cutCode_append {pat t before rest : Text} {z : Zone}
    (h : cutCode pat z t = some (before, rest)) : t = before ++ pat ++ rest := by
  induction t generalizing z before with
  | nil => simp [cutCode] at h
  | cons c t ih =>
    rw [cutCode] at h
    split at h
    · next r hr =>
      simp only [Option.some.injEq, Prod.mk.injEq] at h
      split at hr
      · rw [Text.dropPrefix?_eq_some_iff] at hr
        simp [← h.1, ← h.2, hr]
      · simp at hr
    · obtain ⟨⟨b, r⟩, hb, heq⟩ := Option.map_eq_some_iff.1 h
      simp only [Prod.mk.injEq] at heq
      have := @ih b (z.next c) (by rw [hb, heq.2])
      rw [this, ← heq.1]
      simp

end Zone

end Breadboard
