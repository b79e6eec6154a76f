/-
  Breadboard.Proofs.Sketch.Alike — lines that differ in what their strings say.

  Two texts are `Alike` if they are the same but for what stands between the quotes of closed
  string literals. Each scan of a line passes over such a literal as a whole and goes on in code
  behind it, so alike texts stay alike when blanks and comments are taken off
  (`Alike.trim`, `Alike.beforeMark`), and their braces, their outlines and their first characters
  are the same.

  Proved: alike lines are taken alike by every reader, unless a line declares a block and just one
  of the two has an opening brace in its code (`Reader.takeLine_alike`): that one test looks at the
  whole code, strings included.
-/

import Mathlib
import Breadboard.Proofs.Sketch.Alignment
import Breadboard.Proofs.Sketch.Extent

namespace Breadboard.Sketch

/-- What may stand between the quotes of a string literal: no quote by itself, no backslash without the character behind
it, and no line feed. -/
structure Contents (t : Text) : Prop where
  quotable : ∃ u, Quotable t u
  newline : '\n' ∉ t

def literal (contents : Text) : Text := '"' :: contents ++ ['"']

/-- The same text, up to what its string literals say. -/
inductive Alike : Zone → Text → Text → Prop
  | nil {z : Zone} : Alike z [] []
  | char {z : Zone} {s t : Text} (c : Char) : Alike (z.next c) s t → Alike z (c :: s) (c :: t)
  | strings {a b s t : Text} : Contents a → Contents b → Alike .code s t → Alike .code (literal a ++ s) (literal b ++ t)

/-! ## String literals -/

theorem contents_of_not_mem {a : Text} (hq : '"' ∉ a) (hb : '\\' ∉ a) (hn : '\n' ∉ a) : Contents a := by
  refine ⟨⟨a, ?_⟩, hn⟩
  clear hn
  induction a with
  | nil => exact .nil
  | cons c a ih =>
    rw [List.mem_cons, not_or] at hq hb
    exact .char (Ne.symm hq.1) (Ne.symm hb.1) (ih hq.2 hb.2)

theorem Contents.stretch {a : Text} (h : Contents a) {p : Char → Prop} (hp : p '"') : Zone.Stretch p (literal a) := by
  obtain ⟨u, hu⟩ := h.quotable
  exact hu.stretch hp

theorem Contents.outline {a : Text} (h : Contents a) : Zone.outline .code (literal a) = ['"', '"'] := by
  have inside : ∀ {t u}, Quotable t u → Zone.outline .string t = [] := by
    intro t u ht
    induction ht with
    | nil => rfl
    | char hq hb _ ih =>
      rw [Zone.outline, if_neg (by simp [hq]), Zone.next_string hq hb]
      exact ih
    | newline _ ih => exact ih
    | tab _ ih => exact ih
    | self _ _ ih => simpa [Zone.outline, Zone.next] using ih
    | unknown _ _ ih => simpa [Zone.outline, Zone.next] using ih
  obtain ⟨u, hu⟩ := h.quotable
  rw [literal, List.cons_append, Zone.outline, if_pos (Or.inl rfl), Zone.outline_append,
    show Zone.code.next '"' = .string from rfl, inside hu, hu.after]
  rfl

theorem solid_literal (a : Text) : Text.Solid (literal a) :=
  ⟨⟨'"', a ++ ['"'], rfl, by decide⟩, ⟨'"' :: a, '"', rfl, by decide⟩⟩

namespace Alike

variable {z : Zone} {s t : Text}

theorem refl (z : Zone) (t : Text) : Alike z t t := by
  induction t generalizing z with
  | nil => exact nil
  | cons c t ih => exact char c (ih _)

theorem prepend {k : Text} (h : Alike (z.after k) s t) : Alike z (k ++ s) (k ++ t) := by
  induction k generalizing z with
  | nil => exact h
  | cons c k ih => exact char c (ih h)

theorem head? (h : Alike z s t) : s.head? = t.head? := by
  cases h <;> rfl

theorem eq_nil_iff (h : Alike z s t) : s = [] ↔ t = [] := by
  rw [← List.head?_eq_none_iff, h.head?, List.head?_eq_none_iff]

/-! ## Scans -/

theorem netBraces (h : Alike z s t) : Zone.netBraces z s = Zone.netBraces z t := by
  induction h with
  | nil => rfl
  | char c _ ih => rw [Zone.netBraces, Zone.netBraces, ih]
  | strings ha hb _ ih =>
    have braceless : ∀ {a}, Contents a → Zone.Stretch (Zone.braceValue · = 0) (literal a) := fun h => h.stretch rfl
    rw [netBraces_append, netBraces_append, (braceless ha).closed, (braceless hb).closed,
      Zone.netBraces_of_allCode (braceless ha).allCode, Zone.netBraces_of_allCode (braceless hb).allCode, ih]

theorem outline (h : Alike z s t) : Zone.outline z s = Zone.outline z t := by
  induction h with
  | nil => rfl
  | char c _ ih => rw [Zone.outline, Zone.outline, ih]
  | strings ha hb _ ih =>
    rw [Zone.outline_append, Zone.outline_append, ha.outline, hb.outline,
      (ha.stretch (p := fun _ => True) trivial).closed, (hb.stretch (p := fun _ => True) trivial).closed, ih]

theorem all (h : Alike z s t) : s.all isBraceOrBlank = t.all isBraceOrBlank := by
  induction h with
  | nil => rfl
  | char c _ ih => rw [List.all_cons, List.all_cons, ih]
  | strings =>
    have literal : ∀ a u : Text, (literal a ++ u).all isBraceOrBlank = false := fun a u => by
      simp [Sketch.literal, isBraceOrBlank, Text.isBlank]
    rw [literal, literal]

/-! ## Ends -/

theorem trimStart (h : Alike .code s t) : Alike .code (Text.trimStart s) (Text.trimStart t) := by
  obtain ⟨z, hz⟩ : ∃ z, z = Zone.code := ⟨_, rfl⟩
  rw [← hz] at h
  induction h with
  | nil => exact nil
  | char c h ih =>
    subst hz
    unfold Text.trimStart at ih ⊢
    rw [List.dropWhile_cons, List.dropWhile_cons]
    split
    · next hc => exact ih (next_blank hc)
    · exact char c h
  | strings ha hb h =>
    have quote : Text.isBlank '"' = false := by decide
    simp only [Text.trimStart, literal, List.cons_append, List.dropWhile_cons, quote, Bool.false_eq_true, if_false]
    exact strings ha hb h

theorem trimEnd (h : Alike z s t) : Alike z (Text.trimEnd s) (Text.trimEnd t) := by
  induction h with
  | nil => exact nil
  | char c _ ih =>
    rw [Text.trimEnd_cons_eq, Text.trimEnd_cons_eq]
    simp only [ih.eq_nil_iff]
    split
    · exact nil
    · exact char c ih
  | strings ha hb _ ih =>
    have literal : ∀ a u, Text.trimEnd (literal a ++ u) = literal a ++ Text.trimEnd u := fun a u =>
      (solid_literal a).trimEnd_append [] u
    rw [literal, literal]
    exact strings ha hb ih

theorem trim (h : Alike .code s t) : Alike .code (Text.trim s) (Text.trim t) := h.trimStart.trimEnd

end Alike

/-! ## Comments -/

/-- The text up to the first two slashes in code. -/
def beforeMark (z : Zone) (t : Text) : Text := ((Zone.cutCode lineMark z t).map (·.1)).getD t

theorem uncommentTail_eq (t : Text) : uncommentTail t = beforeMark .code t := by
  unfold uncommentTail beforeMark
  rcases Zone.cutCode lineMark .code t with _ | ⟨before, rest⟩ <;> rfl

theorem beforeMark_cons (z : Zone) (c : Char) (t : Text) :
    beforeMark z (c :: t) = if z = .code ∧ c = '/' ∧ t.head? = some '/' then [] else c :: beforeMark (z.next c) t := by
  unfold beforeMark
  rw [Zone.cutCode, dropPrefix?_lineMark, ← ite_and]
  by_cases hm : z = .code ∧ c = '/' ∧ t.head? = some '/'
  · rw [if_pos hm, if_pos hm]
    rfl
  · rw [if_neg hm, if_neg hm]
    dsimp only
    rcases Zone.cutCode lineMark (z.next c) t with _ | ⟨before, rest⟩ <;> rfl

theorem Contents.beforeMark {a : Text} (h : Contents a) (t : Text) :
    beforeMark .code (literal a ++ t) = literal a ++ beforeMark .code t := by
  have slashless : Zone.Stretch (· ≠ '/') (literal a) := h.stretch (by decide)
  unfold Sketch.beforeMark lineMark
  rw [show "//".toList = '/' :: ['/'] from rfl, Zone.cutCode_of_allCode slashless.allCode, slashless.closed]
  rcases Zone.cutCode ['/', '/'] .code t with _ | ⟨before, rest⟩ <;> rfl

namespace Alike

variable {z : Zone} {s t : Text}

theorem beforeMark (h : Alike z s t) : Alike z (beforeMark z s) (beforeMark z t) := by
  induction h with
  | nil => exact nil
  | char c h ih =>
    rw [beforeMark_cons, beforeMark_cons, h.head?]
    split
    · exact nil
    · exact char c ih
  | strings ha hb _ ih =>
    rw [ha.beforeMark, hb.beforeMark]
    exact strings ha hb ih

theorem codeOf (h : Alike .code s t) : Alike .code (codeOf s) (codeOf t) := by
  unfold Sketch.codeOf
  rw [uncommentTail_eq, uncommentTail_eq]
  exact h.beforeMark.trim

/-- Alike texts are kept or dropped alike. -/
theorem kept? (h : Alike .code s t) :
    kept? s = none ∧ kept? t = none ∨ ∃ k k', kept? s = some k ∧ kept? t = some k' ∧ Alike .code k k' := by
  have h := h.trim
  have hempty : (Text.trim s).isEmpty = (Text.trim t).isEmpty := by
    rw [Bool.eq_iff_iff, List.isEmpty_iff, List.isEmpty_iff, h.eq_nil_iff]
  have hmark : (Text.dropPrefix? lineMark (Text.trim s)).isSome = (Text.dropPrefix? lineMark (Text.trim t)).isSome := by
    generalize Text.trim s = u, Text.trim t = v at h
    cases h with
    | nil => rfl
    | char c h =>
      rw [dropPrefix?_lineMark, dropPrefix?_lineMark, h.head?]
      split <;> rfl
    | strings => rfl
  simp only [Sketch.kept?, hempty, hmark]
  split
  · exact Or.inl ⟨rfl, rfl⟩
  · exact Or.inr ⟨_, _, rfl, rfl, h⟩

end Alike

/-! ## The reader -/

/-- What the reader sees of the code of a line that it keeps: its signature and its braces, and for a line that declares
a block also whether there is an opening brace anywhere in it. -/
theorem Reader.takeLine_alike {r : Reader} {k k' : Text} (h : Alike .code k k')
    (brace : signature? (codeOf k) ≠ none → ('{' ∈ codeOf k ↔ '{' ∈ codeOf k')) : r.takeLine k = r.takeLine k' := by
  have hcode := h.codeOf
  have hsig : signature? (codeOf k') = signature? (codeOf k) := by
    unfold signature?
    rw [hcode.outline]
  rcases hs : signature? (codeOf k) with _ | b
  · rcases hb : r.block with _ | b
    · rw [takeLine_of_closed hs hb, takeLine_of_closed (hsig.trans hs) hb]
    · rw [takeLine_of_block hs hb, takeLine_of_block (hsig.trans hs) hb, hcode.netBraces, hcode.all]
  · have hbrace := brace (by rw [hs]; simp)
    rw [takeLine_of_signature hs, takeLine_of_signature (hsig.trans hs), hcode.netBraces]
    simp only [hbrace]

end Breadboard.Sketch
