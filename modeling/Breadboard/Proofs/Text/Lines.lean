/-
  Breadboard.Proofs.Text.Lines — where the lines of a text begin and end.

  A text is complete lines and perhaps a last one without a line feed (`exists_lines`), and its
  lines are those of its parts (`lines_completed`, `EndsLine.lines_append`). A line is found in
  the text by its number (`exists_line`), and a place in the text has the line that it stands on
  (`EndsLine.getElem?_lines`). The pieces of a text are joined again to the text (`joined_pieces`), and
  those between line feeds are its lines with one that may be empty at the end (`pieces_completed`).
-/

import Mathlib
import Breadboard.Text.Lines
import Breadboard.Proofs.Text.Trim

namespace Breadboard.Text

/-! ## Lines -/

/-- A line without the carriage return that belongs to its end. -/
def dropReturn : Text → Text
  | [] => []
  | ['\r'] => []
  | c :: t => c :: dropReturn t

theorem dropReturn_cons {c : Char} {t : Text} (h : t ≠ []) : dropReturn (c :: t) = c :: dropReturn t := by
  rw [dropReturn]
  intro _ ht
  exact h ht

theorem dropReturn_append (s : Text) {t : Text} (h : t ≠ []) : dropReturn (s ++ t) = s ++ dropReturn t := by
  induction s with
  | nil => rfl
  | cons c s ih => rw [List.cons_append, dropReturn_cons (by simp [h]), ih, List.cons_append]

/-- Behind a text that does not end in a carriage return itself. -/
theorem dropReturn_behind (s : Text) {m : Text} (hne : m ≠ []) (h : dropReturn m = m) (t : Text) :
    dropReturn (s ++ (m ++ t)) = s ++ (m ++ dropReturn t) := by
  by_cases ht : t = []
  · subst ht
    rw [List.append_nil, dropReturn_append s hne, h]
    exact congrArg (s ++ ·) (List.append_nil m).symm
  · rw [dropReturn_append s (by simp [ht]), dropReturn_append m ht]

theorem dropReturn_cases (t : Text) : dropReturn t = t ∨ ∃ s, t = s ++ ['\r'] ∧ dropReturn t = s := by
  rcases List.eq_nil_or_concat t with rfl | ⟨s, c, rfl⟩
  · exact Or.inl rfl
  · rw [List.concat_eq_append, dropReturn_append s (by simp)]
    by_cases hc : c = '\r'
    · subst hc
      exact Or.inr ⟨s, rfl, by simp [dropReturn]⟩
    · left
      rw [dropReturn]
      · rfl
      · intro h; exact absurd h hc

theorem mem_of_mem_dropReturn {c : Char} {t : Text} (h : c ∈ dropReturn t) : c ∈ t := by
  rcases dropReturn_cases t with hd | ⟨s, rfl, hd⟩
  · rwa [hd] at h
  · rw [hd] at h
    exact List.mem_append_left _ h

theorem mem_dropReturn {c : Char} {t : Text} (h : c ∈ t) (hc : c ≠ '\r') : c ∈ dropReturn t := by
  rcases dropReturn_cases t with hd | ⟨s, rfl, hd⟩
  · rwa [hd]
  · rw [hd]
    exact (List.mem_append.1 h).resolve_right fun hr => hc (List.mem_singleton.1 hr)

theorem trim_dropReturn (t : Text) : trim (dropReturn t) = trim t := by
  rcases dropReturn_cases t with h | ⟨s, rfl, h⟩
  · rw [h]
  · rw [h, trim_gap (by decide)]

/-- A character that does not end a line, alone or together with the next one. -/
theorem lines_cons {c : Char} {t : Text} (hc : c ≠ '\n') (hr : t.head? ≠ some '\n') :
    lines (c :: t) = consFirst c (lines t) := by
  rw [lines]
  · intro u _ hu
    rw [hu] at hr
    exact hr rfl
  · exact hc

theorem lines_line {l : Text} (h : '\n' ∉ l) (t : Text) : lines (l ++ '\n' :: t) = dropReturn l :: lines t := by
  induction l with
  | nil => rfl
  | cons c l ih =>
    rw [List.mem_cons, not_or] at h
    have hc : c ≠ '\n' := fun he => h.1 he.symm
    cases l with
    | nil =>
      by_cases hr : c = '\r'
      · subst hr; rfl
      · simp [lines, hr, dropReturn, consFirst]
    | cons d l =>
      have hd : (d :: l ++ '\n' :: t).head? ≠ some '\n' := fun he => h.2 (by simp_all)
      rw [dropReturn_cons (List.cons_ne_nil d l), List.cons_append, lines_cons hc hd, ih h.2]
      rfl

theorem lines_last {l : Text} (h : '\n' ∉ l) (hne : l ≠ []) : lines l = [l] := by
  induction l with
  | nil => exact absurd rfl hne
  | cons c l ih =>
    rw [List.mem_cons, not_or] at h
    have hc : c ≠ '\n' := fun he => h.1 he.symm
    have hd : l.head? ≠ some '\n' := fun he => h.2 (List.mem_of_mem_head? he)
    rw [lines_cons hc hd]
    by_cases hl : l = []
    · rw [hl]; rfl
    · rw [ih h.2 hl]; rfl

theorem exists_lines (t : Text) :
    ∃ (ls : List Text) (l : Text), t = ls.flatMap (· ++ ['\n']) ++ l ∧ (∀ x ∈ ls, '\n' ∉ x) ∧ '\n' ∉ l := by
  induction t with
  | nil => exact ⟨[], [], rfl, by simp, by simp⟩
  | cons c t ih =>
    obtain ⟨ls, l, rfl, hls, hl⟩ := ih
    by_cases hc : c = '\n'
    · subst hc
      refine ⟨[] :: ls, l, rfl, ?_, hl⟩
      simpa using hls
    · cases ls with
      | nil => exact ⟨[], c :: l, rfl, by simp, by simp [hl, Ne.symm hc]⟩
      | cons x ls =>
        refine ⟨(c :: x) :: ls, l, by simp, ?_, hl⟩
        simp only [List.mem_cons, forall_eq_or_imp] at hls ⊢
        exact ⟨by simp [hls.1, Ne.symm hc], hls.2⟩

theorem lines_completed {ls : List Text} (h : ∀ x ∈ ls, '\n' ∉ x) (t : Text) :
    lines (ls.flatMap (· ++ ['\n']) ++ t) = ls.map dropReturn ++ lines t := by
  induction ls with
  | nil => rfl
  | cons l ls ih =>
    simp only [List.mem_cons, forall_eq_or_imp] at h
    rw [List.flatMap_cons, List.append_assoc, List.append_assoc, List.singleton_append, lines_line h.1, ih h.2]
    rfl

theorem count_completed {ls : List Text} (h : ∀ x ∈ ls, '\n' ∉ x) :
    (ls.flatMap (· ++ ['\n'])).count '\n' = ls.length := by
  induction ls with
  | nil => rfl
  | cons l ls ih =>
    simp only [List.mem_cons, forall_eq_or_imp] at h
    rw [List.flatMap_cons, List.count_append, List.count_append, List.count_eq_zero.2 h.1, ih h.2]
    simp [Nat.add_comm]

/-! ## Beginnings and ends of lines -/

/-- Empty, or with a line feed at its end: what follows begins a line. -/
def EndsLine (t : Text) : Prop := t = [] ∨ ∃ u, t = u ++ ['\n']

theorem EndsLine.exists_lines {t : Text} (h : EndsLine t) :
    ∃ ls : List Text, t = ls.flatMap (· ++ ['\n']) ∧ ∀ x ∈ ls, '\n' ∉ x := by
  obtain ⟨ls, l, ht, hls, hl⟩ := Text.exists_lines t
  rcases h with rfl | ⟨u, rfl⟩
  · exact ⟨[], rfl, by simp⟩
  · rcases List.eq_nil_or_concat l with rfl | ⟨l, c, rfl⟩
    · exact ⟨ls, by rw [ht, List.append_nil], hls⟩
    · rw [List.concat_eq_append] at ht hl
      rw [← List.append_assoc] at ht
      have hc : '\n' = c := by simpa using (List.append_inj' ht rfl).2
      exact absurd (List.mem_append_right l (List.mem_singleton.2 hc)) hl

theorem EndsLine.right {w x : Text} (h : EndsLine (w ++ x)) : EndsLine x := by
  rcases List.eq_nil_or_concat x with rfl | ⟨y, c, rfl⟩
  · exact Or.inl rfl
  · rw [List.concat_eq_append, ← List.append_assoc] at h
    rcases h with h | ⟨u, h⟩
    · simp at h
    · have hc : c = '\n' := by simpa using (List.append_inj' h rfl).2
      exact Or.inr ⟨y, by rw [hc, List.concat_eq_append]⟩

theorem EndsLine.mem {t : Text} (h : EndsLine t) (hne : t ≠ []) : '\n' ∈ t := by
  rcases h with h | ⟨u, rfl⟩
  · exact absurd h hne
  · simp

theorem endsLine_completed (ls : List Text) : EndsLine (ls.flatMap (· ++ ['\n'])) := by
  rcases List.eq_nil_or_concat ls with rfl | ⟨ls, l, rfl⟩
  · exact Or.inl rfl
  · exact Or.inr ⟨ls.flatMap (· ++ ['\n']) ++ l, by simp⟩

theorem EndsLine.lines_append {t : Text} (h : EndsLine t) (u : Text) : lines (t ++ u) = lines t ++ lines u := by
  obtain ⟨ls, rfl, hls⟩ := h.exists_lines
  have ht := lines_completed hls []
  rw [List.append_nil] at ht
  rw [lines_completed hls, ht]
  exact (List.append_nil _).symm ▸ rfl

theorem EndsLine.length_lines {t : Text} (h : EndsLine t) : (lines t).length = t.count '\n' := by
  obtain ⟨ls, rfl, hls⟩ := h.exists_lines
  have ht := lines_completed hls []
  rw [List.append_nil] at ht
  rw [ht, count_completed hls, List.length_append, List.length_map]
  rfl

/-- Empty, or a line feed and what follows it. -/
def BreaksLine (t : Text) : Prop := t = [] ∨ ∃ u, t = '\n' :: u

/-- A text in front of another one ends on the first line or goes over its end. -/
theorem BreaksLine.cases {x v g r : Text} (hr : BreaksLine r) (h : x ++ v = g ++ r) :
    (∃ x', g = x ++ x') ∨ ∃ x', x = g ++ '\n' :: x' := by
  rcases List.append_eq_append_iff.1 h with ⟨x', hg, -⟩ | ⟨x', rfl, hx⟩
  · exact Or.inl ⟨x', hg⟩
  · rcases x' with _ | ⟨c, x'⟩
    · exact Or.inl ⟨[], by simp⟩
    · rcases hr with rfl | ⟨u, rfl⟩
      · cases hx
      · rw [List.cons_append] at hx
        obtain ⟨rfl, -⟩ := List.cons.inj hx
        exact Or.inr ⟨x', rfl⟩

/-- Where the line with a given number stands in a text. -/
theorem exists_line {t l : Text} {k : Nat} (h : (lines t)[k]? = some l) :
    ∃ p m e, t = p ++ (m ++ e) ∧ EndsLine p ∧ p.count '\n' = k ∧ '\n' ∉ m ∧ BreaksLine e ∧
      (l = m ∨ l = dropReturn m) := by
  obtain ⟨ls, last, rfl, hls, hlast⟩ := exists_lines t
  rw [lines_completed hls] at h
  rcases Nat.lt_or_ge k ls.length with hk | hk
  · rw [List.getElem?_append_left (by simpa using hk), List.getElem?_map, List.getElem?_eq_getElem hk] at h
    obtain rfl := Option.some.inj h
    have hsplit : ls = ls.take k ++ ls[k] :: ls.drop (k + 1) := by simp
    refine ⟨(ls.take k).flatMap (· ++ ['\n']), ls[k], '\n' :: ((ls.drop (k + 1)).flatMap (· ++ ['\n']) ++ last), ?_,
      endsLine_completed _, ?_, hls _ (List.getElem_mem hk), Or.inr ⟨_, rfl⟩, Or.inr rfl⟩
    · have hf := congrArg (List.flatMap (· ++ ['\n'])) hsplit
      rw [List.flatMap_append, List.flatMap_cons] at hf
      rw [hf]
      simp only [List.append_assoc, List.cons_append, List.nil_append]
    · rw [count_completed fun x hx => hls x (List.mem_of_mem_take hx), List.length_take]
      omega
  · rw [List.getElem?_append_right (by simpa using hk), List.length_map] at h
    by_cases hne : last = []
    · rw [hne] at h
      cases h
    · rw [lines_last hlast hne, List.getElem?_singleton] at h
      split at h
      · next hz =>
        obtain rfl := Option.some.inj h
        refine ⟨ls.flatMap (· ++ ['\n']), last, [], by simp, endsLine_completed ls, ?_, hlast, Or.inl rfl, Or.inl rfl⟩
        rw [count_completed hls]
        omega
      · cases h

theorem infix_of_mem_lines {t l : Text} (h : l ∈ lines t) : l <:+: t := by
  obtain ⟨k, hk⟩ := List.mem_iff_getElem?.1 h
  obtain ⟨p, m, e, rfl, -, -, -, -, rfl | rfl⟩ := exists_line hk
  · exact ⟨p, e, by simp⟩
  · rcases dropReturn_cases m with hm | ⟨s, rfl, hm⟩
    · exact ⟨p, e, by simp [hm]⟩
    · exact ⟨p, '\r' :: e, by simp [hm]⟩

theorem newline_not_mem_line {t l : Text} (h : l ∈ lines t) : '\n' ∉ l := by
  obtain ⟨k, hk⟩ := List.mem_iff_getElem?.1 h
  obtain ⟨p, m, e, -, -, -, hm, -, rfl | rfl⟩ := exists_line hk
  · exact hm
  · exact fun hn => hm (mem_of_mem_dropReturn hn)

/-! ## Places in a text -/

/-- The beginning of each line up to a place in a text. -/
theorem exists_start {t : Text} {j : Nat} (hj : j ≤ t.count '\n') :
    ∃ p x, t = p ++ x ∧ EndsLine p ∧ p.count '\n' = j := by
  obtain ⟨ls, l, rfl, hls, hl⟩ := exists_lines t
  rw [List.count_append, count_completed hls, List.count_eq_zero.2 hl] at hj
  refine ⟨(ls.take j).flatMap (· ++ ['\n']), (ls.drop j).flatMap (· ++ ['\n']) ++ l, ?_, endsLine_completed _, ?_⟩
  · rw [← List.append_assoc, ← List.flatMap_append, List.take_append_drop]
  · rw [count_completed fun x hx => hls x (List.mem_of_mem_take hx), List.length_take]
    omega

/-- Of two beginnings of lines in a text the one on the earlier line comes first. -/
theorem EndsLine.exists_append {x r y s : Text} (hx : EndsLine x) (h : x ++ r = y ++ s)
    (hc : x.count '\n' ≤ y.count '\n') : ∃ d, y = x ++ d := by
  rcases List.append_eq_append_iff.1 h with ⟨d, rfl, -⟩ | ⟨d, rfl, -⟩
  · exact ⟨d, rfl⟩
  · rcases d with _ | ⟨c, d⟩
    · exact ⟨[], by simp⟩
    · have hd := List.count_pos_iff.2 (hx.right.mem (List.cons_ne_nil c d))
      rw [List.count_append] at hc
      omega

theorem exists_breaksLine (t : Text) : ∃ e r, t = e ++ r ∧ '\n' ∉ e ∧ BreaksLine r := by
  induction t with
  | nil => exact ⟨[], [], rfl, List.not_mem_nil, Or.inl rfl⟩
  | cons c t ih =>
    obtain ⟨e, r, rfl, he, hr⟩ := ih
    by_cases hc : c = '\n'
    · subst hc
      exact ⟨[], '\n' :: (e ++ r), rfl, List.not_mem_nil, Or.inr ⟨e ++ r, rfl⟩⟩
    · exact ⟨c :: e, r, rfl, by simp [he, Ne.symm hc], hr⟩

theorem EndsLine.getElem?_lines {p m r : Text} (hp : EndsLine p) (hm : '\n' ∉ m) (hr : BreaksLine r)
    (hne : m ++ r ≠ []) : ∃ l, (lines (p ++ (m ++ r)))[p.count '\n']? = some l ∧ (l = m ∨ l = dropReturn m) := by
  rw [hp.lines_append, ← hp.length_lines, List.getElem?_append_right (Nat.le_refl _), Nat.sub_self]
  rcases hr with rfl | ⟨u, rfl⟩
  · rw [List.append_nil] at hne ⊢
    rw [lines_last hm hne]
    exact ⟨m, rfl, Or.inl rfl⟩
  · rw [lines_line hm]
    exact ⟨dropReturn m, rfl, Or.inr rfl⟩

/-- What is on the line that begins at a place stands before the next line. -/
theorem EndsLine.mem_of_mem_line {p x r l : Text} {c : Char} (hp : EndsLine p) (hx : EndsLine x)
    (hone : x.count '\n' = 1) (hl : (lines (p ++ (x ++ r)))[p.count '\n']? = some l) (hc : c ∈ l) : c ∈ x := by
  rcases hx with rfl | ⟨m, rfl⟩
  · cases hone
  · have hm : '\n' ∉ m := by
      rw [List.count_append, List.count_singleton_self] at hone
      exact List.count_eq_zero.1 (by omega)
    rw [List.append_assoc, List.singleton_append] at hl
    obtain ⟨l', hl', hlm⟩ := hp.getElem?_lines hm (Or.inr ⟨r, rfl⟩) (by simp)
    rw [hl] at hl'
    obtain rfl := Option.some.inj hl'
    refine List.mem_append_left _ ?_
    rcases hlm with rfl | rfl
    · exact hc
    · exact mem_of_mem_dropReturn hc

/-- The line on which a character stands that is no blank. -/
theorem EndsLine.exists_line_of_mem {p m r : Text} {c : Char} (hp : EndsLine p) (hm : '\n' ∉ m)
    (hc : isBlank c = false) : ∃ l, (lines (p ++ (m ++ c :: r)))[p.count '\n']? = some l ∧ c ∈ l := by
  obtain ⟨e, v, rfl, he, hv⟩ := exists_breaksLine r
  have hne : ∀ d, isBlank d = true → c ≠ d := fun d hd => (ne_of_isBlank hd hc).symm
  have hline : '\n' ∉ m ++ c :: e := by simp [hm, he, Ne.symm (hne '\n' (by decide))]
  obtain ⟨l, hl, hlm⟩ := hp.getElem?_lines hline hv (by simp)
  refine ⟨l, by simpa using hl, ?_⟩
  rcases hlm with rfl | rfl
  · simp
  · exact mem_dropReturn (by simp) (hne '\r' (by decide))

/-! ## Pieces -/

theorem joined_consFirst (sep c : Char) (ls : List Text) : joined sep (consFirst c ls) = c :: joined sep ls := by
  cases ls with
  | nil => rfl
  | cons l ls => cases ls <;> rfl

theorem joined_cons (sep : Char) (l : Text) {ls : List Text} (h : ls ≠ []) :
    joined sep (l :: ls) = l ++ sep :: joined sep ls := by
  rw [joined]
  exact h

/-- An empty text at the end is one separator more. -/
theorem joined_concat_nil (sep : Char) {ls : List Text} (h : ls ≠ []) :
    joined sep (ls ++ [[]]) = joined sep ls ++ [sep] := by
  induction ls with
  | nil => exact absurd rfl h
  | cons l ls ih =>
    by_cases hls : ls = []
    · subst hls
      simp [joined]
    · rw [List.cons_append, joined_cons sep l (by simp), joined_cons sep l hls, ih hls]
      simp

/-- Nothing but the separators is missing in the pieces. -/
theorem joined_pieces (sep : Char) (t : Text) : joined sep (pieces sep t) = t := by
  induction t with
  | nil => rfl
  | cons c t ih =>
    rw [pieces]
    split
    · next hc => rw [joined_cons sep [] (pieces_ne_nil sep t), ih, hc, List.nil_append]
    · rw [joined_consFirst, ih]

theorem pieces_append (sep : Char) (s t : Text) : pieces sep (s ++ sep :: t) = pieces sep s ++ pieces sep t := by
  induction s with
  | nil => simp [pieces]
  | cons c s ih =>
    rw [List.cons_append, pieces, pieces]
    split
    · rw [ih]
      rfl
    · obtain ⟨p, ps, hp⟩ := List.exists_cons_of_ne_nil (pieces_ne_nil sep s)
      rw [ih, hp]
      rfl

theorem pieces_of_not_mem {sep : Char} {t : Text} (h : sep ∉ t) : pieces sep t = [t] := by
  induction t with
  | nil => rfl
  | cons c t ih =>
    rw [List.mem_cons, not_or] at h
    rw [pieces, if_neg (Ne.symm h.1), ih h.2]
    rfl

theorem pieces_completed {ls : List Text} {l : Text} (h : ∀ x ∈ ls, '\n' ∉ x) (hl : '\n' ∉ l) :
    pieces '\n' (ls.flatMap (· ++ ['\n']) ++ l) = ls ++ [l] := by
  induction ls with
  | nil => exact pieces_of_not_mem hl
  | cons x ls ih =>
    rw [List.forall_mem_cons] at h
    rw [List.flatMap_cons, List.append_assoc, List.append_assoc, List.singleton_append, pieces_append,
      pieces_of_not_mem h.1, ih h.2]
    rfl

/-- What begins a line has pieces of its own. -/
theorem EndsLine.exists_pieces {t : Text} (h : EndsLine t) :
    ∃ ps : List Text, ps.length = t.count '\n' ∧ ∀ u, pieces '\n' (t ++ u) = ps ++ pieces '\n' u := by
  rcases h with rfl | ⟨s, rfl⟩
  · exact ⟨[], rfl, fun _ => rfl⟩
  · refine ⟨pieces '\n' s, ?_, ?_⟩
    · rw [length_pieces, List.count_append]
      rfl
    · intro u
      rw [List.append_assoc, List.singleton_append, pieces_append]

theorem flatten_pieces (sep : Char) (t : Text) : (pieces sep t).flatten = t.filter (· ≠ sep) := by
  induction t with
  | nil => rfl
  | cons c t ih =>
    rw [pieces]
    split
    · next hc => simp [hc, ih]
    · next hc =>
      obtain ⟨p, ps, hp⟩ := List.exists_cons_of_ne_nil (pieces_ne_nil sep t)
      rw [hp, List.flatten_cons] at ih
      rw [hp, consFirst, List.flatten_cons, List.cons_append, ih, List.filter_cons_of_pos (by simpa using hc)]

/-- A sequence that shows a text falls into the parts that show its pieces. -/
theorem pieces_map {α : Type} (sep : Char) (char : α → Char) (as : List α) :
    pieces sep (as.map char) = (as.splitOnP (char · = sep)).map (·.map char) := by
  induction as with
  | nil => simp [pieces]
  | cons a as ih =>
    rw [List.map_cons, pieces, ih, List.splitOnP_cons_eq_if_modifyHead]
    obtain ⟨p, ps, hp⟩ := List.exists_cons_of_ne_nil (List.splitOnP_ne_nil (char · = sep) as)
    by_cases ha : char a = sep
    · simp [ha]
    · simp [ha, hp, consFirst]

theorem sep_not_mem_piece {sep : Char} {t p : Text} (h : p ∈ pieces sep t) : sep ∉ p := by
  induction t generalizing p with
  | nil =>
    obtain rfl : p = [] := by simpa [pieces] using h
    exact List.not_mem_nil
  | cons c t ih =>
    rw [pieces] at h
    split at h
    · rcases List.mem_cons.1 h with rfl | h
      · exact List.not_mem_nil
      · exact ih h
    · next hc =>
      obtain ⟨q, qs, hq⟩ := List.exists_cons_of_ne_nil (pieces_ne_nil sep t)
      rw [hq] at h ih
      rcases List.mem_cons.1 h with rfl | h
      · simp only [List.mem_cons, not_or]
        exact ⟨Ne.symm hc, ih (List.mem_cons_self ..)⟩
      · exact ih (List.mem_cons_of_mem q h)

end Breadboard.Text
