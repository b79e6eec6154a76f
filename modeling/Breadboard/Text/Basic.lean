/-
  Breadboard.Text.Basic — text as a sequence of characters, and the cuts every reader makes.

  Blank characters are those with the Unicode property White_Space (`isBlank`). `trim` takes
  them off both ends. `cut pat t` splits `t` around the first occurrence of `pat`, and
  `dropPrefix?` and `dropSuffix?` take a fixed beginning or end off.
  `isBlank_of_isWhitespace` ties the table to the four blanks of ASCII that the core library
  knows; `cut_append` says that nothing is lost in a cut.
-/

namespace Breadboard

/-- Text is the list of its characters: every rule of the library reads one after the other. -/
abbrev Text := List Char

namespace Text

/-- The characters with the property White_Space. -/
def isBlank (c : Char) : Bool :=
  let n := c.toNat
  (0x09 ≤ n && n ≤ 0x0D) || n == 0x20 || n == 0x85 || n == 0xA0 || n == 0x1680 ||
    (0x2000 ≤ n && n ≤ 0x200A) || n == 0x2028 || n == 0x2029 || n == 0x202F || n == 0x205F ||
    n == 0x3000

theorem isBlank_of_isWhitespace {c : Char} (h : c.isWhitespace = true) : isBlank c = true := by
  simp only [Char.isWhitespace, Bool.or_eq_true, decide_eq_true_eq] at h
  rcases h with ((h | h) | h) | h <;> subst h <;> decide

def trimStart (t : Text) : Text := t.dropWhile isBlank

def trimEnd (t : Text) : Text := (t.reverse.dropWhile isBlank).reverse

def trim (t : Text) : Text := trimEnd (trimStart t)

def allBlank (t : Text) : Bool := t.all isBlank

/-- Texts are ordered by the code points of their characters, as words in a dictionary. -/
def le : Text → Text → Bool
  | [], _ => true
  | _ :: _, [] => false
  | c :: s, d :: t => c.toNat < d.toNat || (c = d && le s t)

/-- What follows `pat` at the beginning of the text. -/
def dropPrefix? : Text → Text → Option Text
  | [], t => some t
  | _ :: _, [] => none
  | p :: pat, c :: t => if p = c then dropPrefix? pat t else none

/-- What precedes `pat` at the end of the text. -/
def dropSuffix? (pat t : Text) : Option Text :=
  (dropPrefix? pat.reverse t.reverse).map List.reverse

/-- The text before the first occurrence of `pat` and the text after it. -/
def cut (pat : Text) : Text → Option (Text × Text)
  | [] => if pat = [] then some ([], []) else none
  | c :: t =>
    match dropPrefix? pat (c :: t) with
    | some rest => some ([], rest)
    | none => (cut pat t).map fun (before, rest) => (c :: before, rest)

def contains (pat t : Text) : Bool := (cut pat t).isSome

theorem dropPrefix?_eq_some_iff {pat t rest : Text} :
    dropPrefix? pat t = some rest ↔ t = pat ++ rest := by
  induction pat generalizing t with
  | nil => simp [dropPrefix?]
  | cons p pat ih =>
    cases t with
    | nil => simp [dropPrefix?]
    | cons c t =>
      by_cases h : p = c
      · simp [dropPrefix?, h, ih]
      · simp [dropPrefix?, h, Ne.symm h]

theorem dropSuffix?_eq_some_iff {pat t before : Text} :
    dropSuffix? pat t = some before ↔ t = before ++ pat := by
  simp only [dropSuffix?, Option.map_eq_some_iff, dropPrefix?_eq_some_iff]
  constructor
  · rintro ⟨r, hr, rfl⟩
    have := congrArg List.reverse hr
    simpa using this
  · rintro rfl
    exact ⟨before.reverse, by simp, by simp⟩

theorem cut_append {pat t before rest : Text} (h : cut pat t = some (before, rest)) :
    t = before ++ pat ++ rest := by
  induction t generalizing before with
  | nil =>
    by_cases hp : pat = []
    · simp only [cut, hp, if_true, Option.some.injEq, Prod.mk.injEq] at h
      simp [hp, ← h.1, ← h.2]
    · simp [cut, hp] at h
  | cons c t ih =>
    rw [cut] at h
    split at h
    · next r hr =>
      simp only [Option.some.injEq, Prod.mk.injEq] at h
      rw [dropPrefix?_eq_some_iff] at hr
      simp [← h.1, ← h.2, hr]
    · obtain ⟨⟨b, r⟩, hb, heq⟩ := Option.map_eq_some_iff.1 h
      simp only [Prod.mk.injEq] at heq
      have := @ih b (by rw [hb, heq.2])
      rw [this, ← heq.1]
      simp

end Text

end Breadboard
