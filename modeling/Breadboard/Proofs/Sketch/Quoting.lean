/-
  Breadboard.Proofs.Sketch.Quoting — no scan looks between the quotes of a string.

  All scans of a line carry the zone and act on characters in code alone. `Zone.AllCode` says
  what holds of these, and a `Zone.Stretch` is a text between two places outside strings. A
  scan goes over a text in which no character in code is one that it looks for, and on in the
  zone behind it: `cutCode_of_allCode`, `codePieces_append`, `netBraces_of_allCode`;
  `mem_outline` says what the outline keeps.

  Proved: behind the opening quote nothing stands in code up to the closing one, whatever the
  string denotes (`Quotable.allCode`, `Quotable.stretch`), and the escaped form of every text
  is such a string (`quotable_escape`).
-/

import Mathlib
import Breadboard.Sketch.Grammar

namespace Breadboard

namespace Zone

variable {p q : Char → Prop} {z : Zone} {s t : Text}

@[simp] theorem after_nil (z : Zone) : z.after [] = z := rfl

@[simp] theorem after_cons (z : Zone) (c : Char) (t : Text) : z.after (c :: t) = (z.next c).after t := rfl

theorem after_append (z : Zone) (s t : Text) : z.after (s ++ t) = (z.after s).after t := List.foldl_append

theorem next_code {c : Char} (h : c ≠ '"') : code.next c = code := by
  unfold next; split <;> simp_all

theorem next_string {c : Char} (hq : c ≠ '"') (hb : c ≠ '\\') : string.next c = string := by
  unfold next; split <;> simp_all

/-- What holds of each character of a text that stands in code. -/
def AllCode (p : Char → Prop) : Zone → Text → Prop
  | _, [] => True
  | z, c :: t => (z = code → p c) ∧ AllCode p (z.next c) t

theorem AllCode.append (hs : AllCode p z s) (ht : AllCode p (z.after s) t) : AllCode p z (s ++ t) := by
  induction s generalizing z with
  | nil => exact ht
  | cons c s ih => exact ⟨hs.1, ih hs.2 ht⟩

theorem AllCode.mono (h : AllCode p z t) (hpq : ∀ c, p c → q c) : AllCode q z t := by
  induction t generalizing z with
  | nil => trivial
  | cons c t ih => exact ⟨fun hz => hpq c (h.1 hz), ih h.2⟩

/-! ## Code without quotes -/

theorem after_code (h : '"' ∉ t) : code.after t = code := by
  induction t with
  | nil => rfl
  | cons c t ih =>
    rw [List.mem_cons, not_or] at h
    rw [after_cons, next_code (Ne.symm h.1), ih h.2]

theorem allCode_of_forall (hq : '"' ∉ t) (h : ∀ c ∈ t, p c) : AllCode p code t := by
  induction t with
  | nil => trivial
  | cons c t ih =>
    rw [List.mem_cons, not_or] at hq
    rw [List.forall_mem_cons] at h
    refine ⟨fun _ => h.1, ?_⟩
    rw [next_code (Ne.symm hq.1)]
    exact ih hq.2 h.2

/-- A stretch of code: outside strings at its end, and with only characters of one kind in code. -/
structure Stretch (p : Char → Prop) (t : Text) : Prop where
  allCode : AllCode p code t
  closed : code.after t = code

theorem Stretch.append (hs : Stretch p s) (ht : Stretch p t) : Stretch p (s ++ t) where
  allCode := hs.allCode.append (hs.closed.symm ▸ ht.allCode)
  closed := by rw [after_append, hs.closed, ht.closed]

theorem Stretch.mono (h : Stretch p t) (hpq : ∀ c, p c → q c) : Stretch q t := ⟨h.allCode.mono hpq, h.closed⟩

/-- A character of another kind does not stand in the code. -/
theorem Stretch.ne {a : Char} (h : Stretch p t) (ha : ¬ p a) : Stretch (· ≠ a) t := h.mono fun c hc => by
  rintro rfl
  exact ha hc

theorem stretch_of_forall (hq : '"' ∉ t) (h : ∀ c ∈ t, p c) : Stretch p t :=
  ⟨allCode_of_forall hq h, after_code hq⟩

theorem Stretch.cons {c : Char} (hq : c ≠ '"') (hc : p c) (ht : Stretch p t) : Stretch p (c :: t) :=
  (stretch_of_forall (t := [c]) (by simpa using Ne.symm hq) (by simpa using hc)).append ht

/-! ## The scans -/

theorem cutCode_of_allCode {a : Char} (h : AllCode (· ≠ a) z s) (pat t : Text) :
    cutCode (a :: pat) z (s ++ t) = (cutCode (a :: pat) (z.after s) t).map fun x => (s ++ x.1, x.2) := by
  induction s generalizing z with
  | nil => simp
  | cons c s ih =>
    have hd : (if z = code then Text.dropPrefix? (a :: pat) (c :: (s ++ t)) else none) = none := by
      split
      · next hz => rw [Text.dropPrefix?, if_neg (Ne.symm (h.1 hz))]
      · rfl
    rw [List.cons_append, cutCode, hd]
    dsimp only
    rw [ih h.2, Option.map_map]
    rfl

theorem cutCode_eq_none_of_allCode {a : Char} (h : AllCode (· ≠ a) z t) (pat : Text) :
    cutCode (a :: pat) z t = none := by
  have := cutCode_of_allCode h pat []
  rwa [List.append_nil] at this

theorem codePieces_append {sep : Char} (h : AllCode (· ≠ sep) z s) {l : Text} {ls : List Text}
    (ht : codePieces sep (z.after s) t = l :: ls) : codePieces sep z (s ++ t) = (s ++ l) :: ls := by
  induction s generalizing z with
  | nil => exact ht
  | cons c s ih =>
    have hc : ¬ (z = code ∧ c = sep) := fun hc => h.1 hc.1 hc.2
    rw [List.cons_append, codePieces, if_neg hc, ih h.2 ht]
    rfl

theorem netBraces_of_allCode (h : AllCode (braceValue · = 0) z t) : netBraces z t = 0 := by
  induction t generalizing z with
  | nil => rfl
  | cons c t ih =>
    rw [netBraces, ih h.2, add_zero]
    split
    · next hz => exact h.1 hz
    · rfl

/-- The outline keeps characters in code, and quotes. -/
theorem mem_outline (h : AllCode p z t) (hq : p '"') {c : Char} (hc : c ∈ outline z t) : p c := by
  induction t generalizing z with
  | nil => cases hc
  | cons d t ih =>
    rw [outline] at hc
    split at hc
    · next hz =>
      rcases List.mem_cons.1 hc with rfl | hc
      · rcases hz with hz | hz
        · exact h.1 hz
        · exact hz.2 ▸ hq
      · exact ih h.2 hc
    · exact ih h.2 hc

theorem outline_append (z : Zone) (s t : Text) : outline z (s ++ t) = outline z s ++ outline (z.after s) t := by
  induction s generalizing z with
  | nil => rfl
  | cons c s ih =>
    rw [List.cons_append, outline, outline, ih]
    split <;> rfl

theorem outline_code (h : '"' ∉ t) : outline code t = t := by
  induction t with
  | nil => rfl
  | cons c t ih =>
    rw [List.mem_cons, not_or] at h
    rw [outline, if_pos (Or.inl rfl), next_code (Ne.symm h.1), ih h.2]

end Zone

namespace Sketch

open Zone

/-! ## Strings -/

variable {t u : Text}

theorem Quotable.after (h : Quotable t u) : Zone.string.after t = .string := by
  induction h with
  | nil => rfl
  | char hq hb _ ih => rw [after_cons, next_string hq hb, ih]
  | newline _ ih => exact ih
  | tab _ ih => exact ih
  | self _ _ ih => exact ih
  | unknown _ _ ih => exact ih

/-- Nothing inside of a string stands in code. -/
theorem Quotable.allCode (h : Quotable t u) (p : Char → Prop) : AllCode p .string t := by
  have hs : Zone.string ≠ .code := by decide
  have he : Zone.escape ≠ .code := by decide
  induction h with
  | nil => trivial
  | char hq hb _ ih =>
    refine ⟨fun hz => absurd hz hs, ?_⟩
    rw [next_string hq hb]
    exact ih
  | newline _ ih => exact ⟨fun hz => absurd hz hs, fun hz => absurd hz he, ih⟩
  | tab _ ih => exact ⟨fun hz => absurd hz hs, fun hz => absurd hz he, ih⟩
  | self _ _ ih => exact ⟨fun hz => absurd hz hs, fun hz => absurd hz he, ih⟩
  | unknown _ _ ih => exact ⟨fun hz => absurd hz hs, fun hz => absurd hz he, ih⟩

/-- Of a string literal only the opening quote stands in code. -/
theorem Quotable.stretch (h : Quotable t u) {p : Char → Prop} (hp : p '"') : Stretch p ('"' :: t ++ ['"']) where
  allCode := by
    refine ⟨fun _ => hp, (h.allCode p).append ?_⟩
    rw [h.after]
    exact ⟨fun hz => absurd hz (by decide), trivial⟩
  closed := by
    rw [List.cons_append, after_cons, after_append, show Zone.code.next '"' = .string from rfl, h.after]
    rfl

theorem Quotable.unescape? (h : Quotable t u) : Sketch.unescape? t = some u := by
  induction h with
  | nil => rfl
  | char hq hb _ ih =>
    rw [Sketch.unescape?]
    · rw [ih]; rfl
    · exact fun h _ => hb h
    · exact fun _ _ h _ => hb h
    · exact hq
  | newline _ ih => rw [Sketch.unescape?, ih]; rfl
  | tab _ ih => rw [Sketch.unescape?, ih]; rfl
  | self hc _ ih => rcases hc with rfl | rfl <;> rw [Sketch.unescape?, ih] <;> rfl
  | @unknown c t u hc _ ih =>
    simp only [List.mem_cons, List.not_mem_nil, not_or, or_false] at hc
    have he : escaped c = ['\\', c] := by
      unfold escaped
      split <;> simp_all
    rw [Sketch.unescape?, ih, he]
    rfl

theorem quotable_escape (t : Text) : Quotable (escape t) t := by
  induction t with
  | nil => exact .nil
  | cons c t ih =>
    have hs : escape (c :: t) = escapeChar c ++ escape t := rfl
    rw [hs]
    unfold escapeChar
    split
    · exact .newline ih
    · exact .tab ih
    · exact .self (Or.inl rfl) ih
    · exact .self (Or.inr rfl) ih
    · next hb hq => exact .char hq hb ih

theorem newline_not_mem_escape (t : Text) : '\n' ∉ escape t := by
  intro h
  obtain ⟨c, -, hc⟩ := List.mem_flatMap.1 h
  unfold escapeChar at hc
  split at hc
  · simp at hc
  · simp at hc
  · simp at hc
  · simp at hc
  · next hn _ _ _ => exact hn (List.mem_singleton.1 hc).symm

end Sketch

end Breadboard
