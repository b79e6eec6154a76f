/-
  Breadboard.Proofs.Sketch.Scan — the single pass and the repeated searches agree.

  `uncomment` searches for the next mark of a block comment again and again; `Place.pass` goes
  over the line once (`uncomment_eq_pass`). Of the pass it is said what happens where two texts
  meet: it goes on from the place it has reached, unless the two characters of a mark would
  come to stand on both sides (`pass_append`).
-/

import Mathlib
import Breadboard.Sketch.Pass

namespace Breadboard.Sketch

theorem lineMark_append (t : Text) : lineMark ++ t = '/' :: '/' :: t := rfl

theorem dropPrefix?_lineMark (c : Char) (t : Text) :
    Text.dropPrefix? lineMark (c :: t) = if c = '/' ∧ t.head? = some '/' then some t.tail else none := by
  cases t with
  | nil => simp [lineMark, Text.dropPrefix?]
  | cons d t => simp [lineMark, Text.dropPrefix?, eq_comm, ite_and]

theorem dropPrefix?_closeMark (c : Char) (t : Text) :
    Text.dropPrefix? closeMark (c :: t) = if c = '*' ∧ t.head? = some '/' then some t.tail else none := by
  cases t with
  | nil => simp [closeMark, Text.dropPrefix?]
  | cons d t => simp [closeMark, Text.dropPrefix?, eq_comm, ite_and]

theorem dropPrefix?_openMark (c : Char) (t : Text) :
    Text.dropPrefix? openMark (c :: t) = if c = '/' ∧ t.head? = some '*' then some t.tail else none := by
  cases t with
  | nil => simp [openMark, Text.dropPrefix?]
  | cons d t => simp [openMark, Text.dropPrefix?, eq_comm, ite_and]

theorem cutCode_eq_none {pat t : Text} (h : ¬ pat <:+: t) (z : Zone) : Zone.cutCode pat z t = none := by
  rcases hc : Zone.cutCode pat z t with _ | ⟨before, rest⟩
  · rfl
  · exact absurd ⟨before, rest, (Zone.cutCode_append hc).symm⟩ h

namespace Place

/-! ## One character of a pass -/

theorem pass_nil (p : Place) : pass p [] = ([], p) := by
  cases p <;> rfl

theorem pass_close {c : Char} {t : Text} (h : c = '*' ∧ t.head? = some '/') :
    pass comment (c :: t) = pass (outside .code) t.tail := by
  obtain ⟨rfl, ht⟩ := h
  obtain ⟨t', rfl⟩ := List.head?_eq_some_iff.1 ht
  rfl

theorem pass_comment {c : Char} {t : Text} (h : ¬ (c = '*' ∧ t.head? = some '/')) :
    pass comment (c :: t) = pass comment t := by
  rw [pass]
  intro t' hc ht
  exact h ⟨hc, by rw [ht]; rfl⟩

theorem pass_open {c : Char} {t : Text} (h : c = '/' ∧ t.head? = some '*') :
    pass (outside .code) (c :: t) = pass comment t.tail := by
  obtain ⟨rfl, ht⟩ := h
  obtain ⟨t', rfl⟩ := List.head?_eq_some_iff.1 ht
  rfl

theorem pass_outside {z : Zone} {c : Char} {t : Text} (h : ¬ (z = .code ∧ c = '/' ∧ t.head? = some '*')) :
    pass (outside z) (c :: t) = (c :: (pass (outside (z.next c)) t).1, (pass (outside (z.next c)) t).2) := by
  rw [pass]
  intro t' hz hc ht
  exact h ⟨hz, hc, by rw [ht]; rfl⟩

/-! ## The searches -/

theorem pass_of_cut {t before rest : Text} (h : Text.cut closeMark t = some (before, rest)) :
    pass comment t = pass (outside .code) rest := by
  induction t generalizing before with
  | nil => simp [Text.cut, closeMark] at h
  | cons c t ih =>
    rw [Text.cut, dropPrefix?_closeMark] at h
    by_cases hm : c = '*' ∧ t.head? = some '/'
    · rw [if_pos hm] at h
      obtain ⟨-, rfl⟩ := Prod.mk.inj (Option.some.inj h)
      exact pass_close hm
    · rw [if_neg hm] at h
      obtain ⟨⟨b, r⟩, hb, heq⟩ := Option.map_eq_some_iff.1 h
      obtain ⟨-, rfl⟩ := Prod.mk.inj heq
      rw [pass_comment hm]
      exact ih hb

theorem pass_of_not_cut {t : Text} (h : Text.cut closeMark t = none) : pass comment t = ([], comment) := by
  induction t with
  | nil => rfl
  | cons c t ih =>
    rw [Text.cut, dropPrefix?_closeMark] at h
    by_cases hm : c = '*' ∧ t.head? = some '/'
    · rw [if_pos hm] at h
      cases h
    · rw [if_neg hm] at h
      rw [pass_comment hm]
      exact ih (Option.map_eq_none_iff.1 h)

theorem pass_of_cutCode {z : Zone} {t kept rest : Text} (h : Zone.cutCode openMark z t = some (kept, rest)) :
    pass (outside z) t = (kept ++ (pass comment rest).1, (pass comment rest).2) := by
  induction t generalizing z kept with
  | nil => cases h
  | cons c t ih =>
    rw [Zone.cutCode, dropPrefix?_openMark, ← ite_and] at h
    by_cases hm : z = .code ∧ c = '/' ∧ t.head? = some '*'
    · rw [if_pos hm] at h
      obtain ⟨rfl, rfl⟩ := Prod.mk.inj (Option.some.inj h)
      obtain ⟨rfl, hm⟩ := hm
      exact pass_open hm
    · rw [if_neg hm] at h
      obtain ⟨⟨b, r⟩, hb, heq⟩ := Option.map_eq_some_iff.1 h
      obtain ⟨rfl, rfl⟩ := Prod.mk.inj heq
      rw [pass_outside hm, ih hb]
      rfl

theorem pass_of_not_cutCode {z : Zone} {t : Text} (h : Zone.cutCode openMark z t = none) :
    pass (outside z) t = (t, outside (z.after t)) := by
  induction t generalizing z with
  | nil => rfl
  | cons c t ih =>
    rw [Zone.cutCode, dropPrefix?_openMark, ← ite_and] at h
    by_cases hm : z = .code ∧ c = '/' ∧ t.head? = some '*'
    · rw [if_pos hm] at h
      cases h
    · rw [if_neg hm] at h
      rw [pass_outside hm, ih (Option.map_eq_none_iff.1 h)]
      rfl

end Place

theorem uncomment_of_cut {t before rest : Text} (h : Text.cut closeMark t = some (before, rest)) :
    uncomment true t = uncomment false rest := by
  rw [uncomment, if_pos rfl]
  split
  · next h' =>
    rw [h] at h'
    obtain ⟨-, rfl⟩ := Prod.mk.inj (Option.some.inj h')
    rfl
  · next h' => rw [h] at h'; cases h'

theorem uncomment_of_not_cut {t : Text} (h : Text.cut closeMark t = none) : uncomment true t = ([], true) := by
  rw [uncomment, if_pos rfl]
  split
  · next h' => rw [h] at h'; cases h'
  · rfl

theorem uncomment_of_cutCode {t kept rest : Text} (h : Zone.cutCode openMark .code t = some (kept, rest)) :
    uncomment false t = (kept ++ (uncomment true rest).1, (uncomment true rest).2) := by
  rw [uncomment, if_neg Bool.false_ne_true]
  split
  · next h' =>
    rw [h] at h'
    obtain ⟨rfl, rfl⟩ := Prod.mk.inj (Option.some.inj h')
    rfl
  · next h' => rw [h] at h'; cases h'

theorem uncomment_of_not_cutCode {t : Text} (h : Zone.cutCode openMark .code t = none) :
    uncomment false t = (t, false) := by
  rw [uncomment, if_neg Bool.false_ne_true]
  split
  · next h' => rw [h] at h'; cases h'
  · rfl

open Place in
theorem uncomment_eq_pass (inComment : Bool) (t : Text) :
    uncomment inComment t = ((pass (ofFlag inComment) t).1, (pass (ofFlag inComment) t).2.isComment) := by
  induction inComment, t using uncomment.induct with
  | case1 t before rest h ih => rw [uncomment_of_cut h, ih]; simp only [ofFlag, if_true, pass_of_cut h]; rfl
  | case2 t h => rw [uncomment_of_not_cut h]; simp only [ofFlag, if_true, pass_of_not_cut h, isComment]
  | case3 flag t hf kept rest h _ _ _ ih =>
    obtain rfl : flag = false := by simpa using hf
    rw [uncomment_of_cutCode h, ih]
    simp only [ofFlag, if_true, Bool.false_eq_true, if_false, pass_of_cutCode h]
  | case4 flag t hf h =>
    obtain rfl : flag = false := by simpa using hf
    rw [uncomment_of_not_cutCode h]
    simp only [ofFlag, Bool.false_eq_true, if_false, pass_of_not_cutCode h, isComment]

namespace Place

/-- Nothing is put in and nothing changes place. -/
theorem pass_sublist (p : Place) (t : Text) : (pass p t).1.Sublist t := by
  induction p, t using pass.induct with
  | case1 p => rw [pass_nil]
  | case2 t ih => exact (ih.cons _).cons _
  | case3 c t hm ih =>
    rw [pass]
    · exact ih.cons c
    · exact hm
  | case4 t ih => exact (ih.cons _).cons _
  | case5 z c t hm kept p hpass ih =>
    rw [pass]
    · exact ih.cons_cons c
    · exact hm

/-! ## Where two texts meet -/

theorem pass_append {p : Place} {s t : Text} (h : t.head? ≠ some '*')
    (hc : (pass p s).2 = comment → t.head? ≠ some '/') :
    pass p (s ++ t) = ((pass p s).1 ++ (pass (pass p s).2 t).1, (pass (pass p s).2 t).2) := by
  -- The pass looks one character ahead, so the induction takes a mark off in one step.
  induction p, s using pass.induct with
  | case1 p => rw [pass_nil]; rfl
  | case2 s ih => exact ih hc
  | case3 c s hm ih =>
    have hs : ¬ (c = '*' ∧ s.head? = some '/') := by
      intro h0
      obtain ⟨rfl, hs⟩ := h0
      obtain ⟨s', rfl⟩ := List.head?_eq_some_iff.1 hs
      exact hm s' rfl rfl
    rw [pass_comment hs] at hc ⊢
    by_cases hst : c = '*' ∧ (s ++ t).head? = some '/'
    · obtain ⟨rfl, hst⟩ := hst
      cases s with
      | nil => exact absurd hst (hc (by rw [pass_nil]))
      | cons d s => exact absurd ⟨rfl, hst⟩ hs
    · rw [List.cons_append, pass_comment hst]
      exact ih hc
  | case4 s ih => exact ih hc
  | case5 z c s hm _ _ _ ih =>
    have hs : ¬ (z = .code ∧ c = '/' ∧ s.head? = some '*') := by
      intro h0
      obtain ⟨rfl, rfl, hs⟩ := h0
      obtain ⟨s', rfl⟩ := List.head?_eq_some_iff.1 hs
      exact hm s' rfl rfl rfl
    rw [pass_outside hs] at hc ⊢
    have hst : ¬ (z = .code ∧ c = '/' ∧ (s ++ t).head? = some '*') := by
      intro h0
      obtain ⟨rfl, rfl, hst⟩ := h0
      cases s with
      | nil => exact h hst
      | cons d s => exact hs ⟨rfl, rfl, hst⟩
    rw [List.cons_append, pass_outside hst, ih hc]
    rfl

end Place

end Breadboard.Sketch
