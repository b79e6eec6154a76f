/-
  Breadboard.Proofs.Text.Trim — blanks at the ends of a text, and pieces that are found in it.

  `trim` takes off gaps and no more (`exists_trim`), and takes nothing off a text that is
  `Solid`: one that has no blank at either end. What stands between two gaps is solid or empty,
  so a solid piece comes out of its gaps as it went in (`Solid.trim_gaps`) and stays in any text
  that is trimmed (`Solid.infix_trim`). A search finds the first of a character
  (`cut_of_not_mem`) and every text that is there (`contains_of_infix`).
-/

import Mathlib
import Breadboard.Sketch.Grammar

namespace Breadboard.Text

/-! ## Gaps at the ends -/

theorem exists_trimEnd (t : Text) : ∃ g, Sketch.IsGap g ∧ trimEnd t ++ g = t :=
  ⟨t.rtakeWhile isBlank, fun _ hc => List.mem_rtakeWhile_imp hc, List.rdropWhile_append_rtakeWhile⟩

theorem trimEnd_cons_eq (c : Char) (t : Text) :
    trimEnd (c :: t) = if isBlank c = true ∧ trimEnd t = [] then [] else c :: trimEnd t := by
  unfold trimEnd
  rw [List.reverse_cons, List.dropWhile_append]
  by_cases he : t.reverse.dropWhile isBlank = []
  · by_cases hc : isBlank c = true <;> simp [he, hc]
  · simp [he]

theorem trimEnd_cons {c : Char} (h : isBlank c = false) (t : Text) : trimEnd (c :: t) = c :: trimEnd t := by
  rw [trimEnd_cons_eq, if_neg (by simp [h])]

theorem trim_cons {c : Char} (h : isBlank c = false) (t : Text) : trim (c :: t) = c :: trimEnd t := by
  rw [trim, trimStart, List.dropWhile_cons, if_neg (by simp [h]), trimEnd_cons h]

/-- A text is its trimmed part between two gaps. -/
theorem exists_trim (t : Text) : ∃ g h, Sketch.IsGap g ∧ Sketch.IsGap h ∧ t = g ++ (trim t ++ h) := by
  obtain ⟨h, hh, he⟩ := exists_trimEnd (trimStart t)
  refine ⟨t.takeWhile isBlank, h, fun c hc => List.mem_takeWhile_imp hc, hh, ?_⟩
  rw [trim, he, trimStart, List.takeWhile_append_dropWhile]

theorem trim_trim (t : Text) : trim (trim t) = trim t := by
  have hs : trimStart (trim t) = trim t := by
    rcases ht : trim t with _ | ⟨c, u⟩
    · rfl
    · obtain ⟨v, -, hv⟩ := exists_trimEnd (trimStart t)
      have hc := List.head?_dropWhile_not isBlank t
      rw [← trimStart, ← hv, ← trim, ht] at hc
      rw [trimStart, List.dropWhile_cons, if_neg (by simpa using hc)]
  rw [trim, hs]
  exact List.rdropWhile_idempotent isBlank (trimStart t)

theorem trim_infix (t : Text) : trim t <:+: t := by
  obtain ⟨g, h, -, -, he⟩ := exists_trim t
  exact ⟨g, h, by rw [List.append_assoc]; exact he.symm⟩

theorem trimEnd_gap {g : Text} (hg : Sketch.IsGap g) (t : Text) : trimEnd (t ++ g) = trimEnd t := by
  unfold trimEnd
  rw [List.reverse_append, List.dropWhile_append_of_pos fun c hc => hg c (List.mem_reverse.1 hc)]

theorem trim_gap {g : Text} (hg : Sketch.IsGap g) (t : Text) : trim (t ++ g) = trim t := by
  have hs : trimStart (t ++ g) = trimStart t ++ g ∨ trimStart t = [] ∧ trimStart (t ++ g) = [] := by
    unfold trimStart
    rw [List.dropWhile_append]
    split
    · next h => exact Or.inr ⟨List.isEmpty_iff.1 h, List.dropWhile_eq_nil_iff.2 hg⟩
    · exact Or.inl rfl
  rcases hs with hs | ⟨ht, hs⟩
  · rw [trim, hs, trimEnd_gap hg, trim]
  · rw [trim, hs, trim, ht]

theorem gap_trim {g : Text} (hg : Sketch.IsGap g) (t : Text) : trim (g ++ t) = trim t := by
  rw [trim, trimStart, List.dropWhile_append_of_pos hg]
  rfl

theorem trim_gaps {g h : Text} (hg : Sketch.IsGap g) (hh : Sketch.IsGap h) (t : Text) :
    trim (g ++ (t ++ h)) = trim t := by
  rw [gap_trim hg, trim_gap hh]

theorem ne_of_isBlank {c d : Char} (hc : isBlank c = true) (hd : isBlank d = false) : c ≠ d := by
  rintro rfl
  rw [hc] at hd
  cases hd

theorem not_mem_gap {g : Text} (hg : Sketch.IsGap g) {c : Char} (hc : isBlank c = false) : c ∉ g :=
  fun hm => ne_of_isBlank (hg c hm) hc rfl

/-! ## Texts without blanks at their ends -/

/-- Not empty, and with no blank at either end. -/
structure Solid (t : Text) : Prop where
  first : ∃ c u, t = c :: u ∧ isBlank c = false
  last : ∃ u c, t = u ++ [c] ∧ isBlank c = false

theorem Solid.ne_nil {t : Text} (h : Solid t) : t ≠ [] := by
  obtain ⟨c, u, rfl, -⟩ := h.first
  exact List.cons_ne_nil c u

theorem Solid.append {s t : Text} (hs : Solid s) (ht : Solid t) (m : Text) : Solid (s ++ (m ++ t)) where
  first := by
    obtain ⟨c, u, rfl, hc⟩ := hs.first
    exact ⟨c, u ++ (m ++ t), rfl, hc⟩
  last := by
    obtain ⟨u, c, rfl, hc⟩ := ht.last
    exact ⟨s ++ (m ++ u), c, by simp, hc⟩

theorem solid_singleton {c : Char} (h : isBlank c = false) : Solid [c] := ⟨⟨c, [], rfl, h⟩, ⟨[], c, rfl, h⟩⟩

theorem solid_of_forall {t : Text} (hne : t ≠ []) (h : ∀ c ∈ t, isBlank c = false) : Solid t where
  first := by
    obtain ⟨c, u, rfl⟩ := List.exists_cons_of_ne_nil hne
    exact ⟨c, u, rfl, h c (List.mem_cons_self ..)⟩
  last := by
    obtain ⟨u, c, rfl⟩ := (List.eq_nil_or_concat' t).resolve_left hne
    exact ⟨u, c, rfl, h c (by simp)⟩

theorem Solid.trimEnd {t : Text} (h : Solid t) : Text.trimEnd t = t := by
  obtain ⟨u, c, rfl, hc⟩ := h.last
  exact List.rdropWhile_concat_neg _ _ _ (by simp [hc])

/-- Trimming takes off the gaps around a text and no more. -/
theorem Solid.trim_gaps {g h t : Text} (ht : Solid t) (hg : Sketch.IsGap g) (hh : Sketch.IsGap h) :
    Text.trim (g ++ (t ++ h)) = t := by
  have hs : trimStart (g ++ (t ++ h)) = t ++ h := by
    obtain ⟨c, u, rfl, hc⟩ := ht.first
    rw [trimStart, List.dropWhile_append_of_pos hg, List.cons_append, List.dropWhile_cons_of_neg (by simp [hc])]
  rw [Text.trim, hs, trimEnd_gap hh, ht.trimEnd]

theorem Solid.trim {t : Text} (h : Solid t) : Text.trim t = t := by
  have := h.trim_gaps (g := []) (h := []) (by decide) (by decide)
  rwa [List.nil_append, List.append_nil] at this

theorem Solid.allBlank {t : Text} (ht : Solid t) (g h : Text) : Text.allBlank (g ++ (t ++ h)) = false := by
  obtain ⟨c, u, rfl, hc⟩ := ht.first
  simp [Text.allBlank, hc]

theorem Solid.trimStart_append {m : Text} (hm : Solid m) (p r : Text) :
    Text.trimStart (p ++ (m ++ r)) = Text.trimStart p ++ (m ++ r) := by
  obtain ⟨c, u, rfl, hc⟩ := hm.first
  unfold Text.trimStart
  rw [List.dropWhile_append]
  split
  · next h => rw [List.isEmpty_iff.1 h]; simp [hc]
  · rfl

theorem Solid.trimEnd_append {m : Text} (hm : Solid m) (p r : Text) :
    Text.trimEnd (p ++ (m ++ r)) = p ++ (m ++ Text.trimEnd r) := by
  obtain ⟨u, c, rfl, hc⟩ := hm.last
  unfold Text.trimEnd
  have hr : (p ++ (u ++ [c] ++ r)).reverse = r.reverse ++ c :: (p ++ u).reverse := by simp
  rw [hr, List.dropWhile_append]
  split
  · next h => rw [List.isEmpty_iff.1 h]; simp [hc]
  · simp

/-- A piece without blanks at its ends stays in a text that is trimmed. -/
theorem Solid.infix_trim {m t : Text} (hm : Solid m) (h : m <:+: t) : m <:+: Text.trim t := by
  obtain ⟨p, r, rfl⟩ := h
  rw [Text.trim, List.append_assoc, hm.trimStart_append, hm.trimEnd_append, ← List.append_assoc]
  exact ⟨Text.trimStart p, Text.trimEnd r, rfl⟩

/-! ## Searches -/

/-- The text before the first of a character. -/
theorem cut_of_not_mem {c : Char} {s : Text} (h : c ∉ s) (t : Text) : cut [c] (s ++ c :: t) = some (s, t) := by
  induction s with
  | nil => simp [cut, dropPrefix?]
  | cons d s ih =>
    rw [List.mem_cons, not_or] at h
    rw [List.cons_append, cut, dropPrefix?, if_neg h.1, ih h.2]
    rfl

theorem contains_of_infix {pat t : Text} (h : pat <:+: t) : contains pat t = true := by
  obtain ⟨p, r, rfl⟩ := h
  rw [List.append_assoc]
  induction p with
  | nil =>
    rw [List.nil_append, contains]
    have hd : dropPrefix? pat (pat ++ r) = some r := dropPrefix?_eq_some_iff.2 rfl
    cases ht : pat ++ r with
    | nil => rw [cut, if_pos (List.append_eq_nil_iff.1 ht).1]; rfl
    | cons c t => rw [cut, ← ht, hd]; rfl
  | cons c p ih =>
    rw [List.cons_append, contains, cut]
    split
    · rfl
    · rw [Option.isSome_map]
      exact ih

end Breadboard.Text
