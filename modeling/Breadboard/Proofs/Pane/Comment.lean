/-
  Breadboard.Proofs.Pane.Comment — the comment that is shown is the one that is read.

  A source line is cut into pieces by a scan of its own, which keeps words and strings together. It
  knows where strings end, as the searches of the sketch's reader do, and begins a comment at whichever
  mark comes first. So the two scans go through a line in step: both stand in code or both in the same
  string (`Place.zone`), and what one calls the beginning of a comment is a mark in code for the other.

  Proved: the pieces put together are the line, a line has a piece that is a comment if and only if one
  of the searches finds its mark, and the comment begins at the smaller of the two places and is the
  last piece (`comment_at_first_mark`).
-/

import Breadboard.Pane.Highlight
import Breadboard.Proofs.Sketch.Quoting
import Breadboard.Proofs.Sketch.Scan

namespace Breadboard

/-! ## Marks in code -/

namespace Sketch

/-- How many characters stand in front of a mark in code. -/
def markAt? (pat : Text) (z : Zone) (t : Text) : Option Nat := (Zone.cutCode pat z t).map (·.1.length)

/-- Where the first mark of a comment stands, of either kind. -/
def commentAt? (z : Zone) (t : Text) : Option Nat := Option.merge min (markAt? lineMark z t) (markAt? openMark z t)

/-- The reader takes a line comment off where its mark stands. -/
theorem uncommentTail_eq_take (t : Text) : uncommentTail t = t.take ((markAt? lineMark .code t).getD t.length) := by
  unfold uncommentTail markAt?
  cases hc : Zone.cutCode lineMark .code t with
  | none => exact List.take_length.symm
  | some cut =>
    obtain ⟨before, rest⟩ := cut
    show before = t.take before.length
    rw [Zone.cutCode_append hc, List.append_assoc, List.take_left]

theorem markAt?_here {pat : Text} {c : Char} {t : Text} (h : (Text.dropPrefix? pat (c :: t)).isSome) :
    markAt? pat .code (c :: t) = some 0 := by
  obtain ⟨rest, hr⟩ := Option.isSome_iff_exists.1 h
  rw [markAt?, Zone.cutCode, if_pos rfl, hr]
  rfl

theorem markAt?_next {pat : Text} {z : Zone} {c : Char} {t : Text}
    (h : z = .code → Text.dropPrefix? pat (c :: t) = none) :
    markAt? pat z (c :: t) = (markAt? pat (z.next c) t).map (· + 1) := by
  have none : (if z = .code then Text.dropPrefix? pat (c :: t) else none) = none := by
    split
    · next hz => exact h hz
    · rfl
  rw [markAt?, Zone.cutCode, none, markAt?, Option.map_map, Option.map_map]
  rfl

theorem beginsComment_iff {c : Char} {t : Text} :
    Pane.Piece.beginsComment c t = true ↔ c = '/' ∧ (t.head? = some '/' ∨ t.head? = some '*') := by
  simp [Pane.Piece.beginsComment]

theorem commentAt?_here {c : Char} {t : Text} (h : Pane.Piece.beginsComment c t = true) :
    commentAt? .code (c :: t) = some 0 := by
  obtain ⟨hc, hline | hblock⟩ := beginsComment_iff.1 h
  · have here : markAt? lineMark .code (c :: t) = some 0 :=
      markAt?_here (by rw [dropPrefix?_lineMark, if_pos ⟨hc, hline⟩]; rfl)
    rw [commentAt?, here]
    cases markAt? openMark .code (c :: t) <;> simp
  · have here : markAt? openMark .code (c :: t) = some 0 :=
      markAt?_here (by rw [dropPrefix?_openMark, if_pos ⟨hc, hblock⟩]; rfl)
    rw [commentAt?, here]
    cases markAt? lineMark .code (c :: t) <;> simp

/-- Places are counted from `k`, which is what a piece that is not finished has taken already. -/
theorem commentAt?_next {z : Zone} {c : Char} {t : Text} (h : z = .code → Pane.Piece.beginsComment c t = false)
    (k : Nat) :
    (commentAt? z (c :: t)).map (k + ·) = (commentAt? (z.next c) t).map (k + 1 + ·) := by
  have neither : z = .code → ¬ (c = '/' ∧ (t.head? = some '/' ∨ t.head? = some '*')) := fun hz hmark =>
    absurd (beginsComment_iff.2 hmark) (by rw [h hz]; decide)
  have hline : markAt? lineMark z (c :: t) = (markAt? lineMark (z.next c) t).map (· + 1) :=
    markAt?_next fun hz => by rw [dropPrefix?_lineMark, if_neg fun hm => neither hz ⟨hm.1, .inl hm.2⟩]
  have hblock : markAt? openMark z (c :: t) = (markAt? openMark (z.next c) t).map (· + 1) :=
    markAt?_next fun hz => by rw [dropPrefix?_openMark, if_neg fun hm => neither hz ⟨hm.1, .inr hm.2⟩]
  rw [commentAt?, commentAt?, hline, hblock]
  cases markAt? lineMark (z.next c) t <;> cases markAt? openMark (z.next c) t <;> simp <;> omega

end Sketch

namespace Pane.Piece

open Sketch

/-- No piece is a comment, or the last one alone, with so many characters in front of it. -/
inductive EndsInComment : List Piece → Option Nat → Prop
  | never {ps : List Piece} : (∀ x ∈ ps, x.kind ≠ .comment) → EndsInComment ps none
  | last {ps : List Piece} (t : Text) :
      (∀ x ∈ ps, x.kind ≠ .comment) → EndsInComment (ps ++ [⟨.comment, t⟩]) (some (ps.flatMap (·.text)).length)

namespace EndsInComment

/-- Pieces that were finished before count to what stands in front. -/
theorem behind {front ps : List Piece} {o : Option Nat} {k : Nat} (hf : ∀ x ∈ front, x.kind ≠ .comment)
    (h : EndsInComment ps (o.map (k + ·))) :
    EndsInComment (front ++ ps) (o.map ((front.flatMap (·.text)).length + k + ·)) := by
  generalize hat : o.map (k + ·) = at' at h
  cases h with
  | never hps =>
    rw [Option.map_eq_none_iff.1 hat]
    exact never fun x hx => (List.mem_append.1 hx).elim (hf x) (hps x)
  | @last ps t hps =>
    obtain ⟨n, rfl, hn⟩ := Option.map_eq_some_iff.1 hat
    have := last t fun x hx => (List.mem_append.1 hx).elim (hf x) (hps x)
    rw [List.append_assoc, List.flatMap_append, List.length_append, ← hn, ← Nat.add_assoc] at this
    exact this

/-- Where a comment stands in the list, it stands last, at the place given. -/
theorem place_eq {before after : List Piece} {x : Piece} {o : Option Nat} (h : EndsInComment (before ++ x :: after) o)
    (hx : x.kind = .comment) : after = [] ∧ o = some (before.flatMap (·.text)).length := by
  generalize hl : before ++ x :: after = l at h
  cases h with
  | never hps => exact absurd hx (hps x (by rw [← hl]; simp))
  | @last ps t hps =>
    rcases List.eq_nil_or_concat after with rfl | ⟨after, y, rfl⟩
    · obtain ⟨rfl, -⟩ := List.append_inj' hl rfl
      exact ⟨rfl, rfl⟩
    · rw [List.concat_eq_append, ← List.cons_append, ← List.append_assoc] at hl
      obtain ⟨rfl, -⟩ := List.append_inj' hl rfl
      exact absurd hx (hps x (by simp))

theorem exists_iff {ps : List Piece} {o : Option Nat} (h : EndsInComment ps o) :
    (∃ x ∈ ps, x.kind = .comment) ↔ o.isSome := by
  cases h with
  | never hps => simpa using hps
  | last t hps => simp

end EndsInComment

/-! ## The two scans in step -/

/-- The zone in which the searches of the reader stand, when the pieces have got this far. -/
def Place.zone : Place → Zone
  | code _ => .code
  | string z _ => z

/-- A string that is not finished stands between its quotes. -/
def Place.Sound (p : Place) : Prop := ∀ s, p ≠ .string .code s

theorem Place.sound_code (w : Text) : (code w).Sound := by
  intro s
  simp

theorem Place.sound_string {z : Zone} (h : z ≠ .code) (s : Text) : (string z s).Sound := by
  intro s'
  simp [h]

theorem wordKind_ne_comment (w : Text) (called : Bool) : wordKind w called ≠ .comment := by
  unfold wordKind
  split_ifs <;> decide

theorem flush_kind (w : Text) {k : PieceKind} (hk : k ≠ .comment) : ∀ x ∈ flush w k, x.kind ≠ .comment := by
  intro x hx
  unfold flush at hx
  split at hx
  · cases hx
  · rw [List.mem_singleton.1 hx]
    exact hk

/-- One character that begins no comment: the pieces finished with it are not comments, and the place
reached is in the zone that the searches reach. -/
theorem pieces_next {p : Place} (hp : p.Sound) {c : Char} {t : Text} (h : p.zone = .code → beginsComment c t = false) :
    ∃ front q, pieces p (c :: t) = front ++ pieces q t ∧ (∀ x ∈ front, x.kind ≠ .comment) ∧ q.Sound ∧
      q.zone = p.zone.next c ∧ front.flatMap (·.text) ++ q.read = p.read ++ [c] := by
  cases p with
  | code w =>
    rw [pieces, if_neg (by rw [h rfl]; decide)]
    by_cases hq : c = '"'
    · subst hq
      exact ⟨flush w .rawWord, .string .string ['"'], rfl, flush_kind w (by decide), Place.sound_string (by decide) _,
        rfl, by rw [text_flush]; rfl⟩
    rw [if_neg hq]
    have hzone : (Place.code w).zone.next c = .code := Zone.next_code hq
    by_cases hw : isWordChar c = true
    · rw [if_pos hw]
      exact ⟨[], .code (c :: w), rfl, by simp, Place.sound_code _, hzone.symm, List.reverse_cons⟩
    · rw [if_neg hw, List.append_cons]
      refine ⟨_, .code [], rfl, ?_, Place.sound_code _, hzone.symm, ?_⟩
      · intro x hx
        rcases List.mem_append.1 hx with hx | hx
        · exact flush_kind w (wordKind_ne_comment _ _) x hx
        · rw [List.mem_singleton.1 hx]
          split <;> simp
      · simp [text_flush, Place.read]
  | string z s =>
    rw [pieces]
    show ∃ front, ∃ q : Place, _ ∧ _ ∧ _ ∧ q.zone = z.next c ∧ _
    cases z.next c with
    | code => exact ⟨[⟨.string, (c :: s).reverse⟩], .code [], rfl, by simp, Place.sound_code _, rfl, by simp [Place.read]⟩
    | string => exact ⟨[], .string .string (c :: s), rfl, by simp, Place.sound_string (by decide) _, rfl, List.reverse_cons⟩
    | escape => exact ⟨[], .string .escape (c :: s), rfl, by simp, Place.sound_string (by decide) _, rfl, List.reverse_cons⟩

theorem pieces_endInComment {p : Place} (hp : p.Sound) (t : Text) :
    EndsInComment (pieces p t) ((commentAt? p.zone t).map (p.read.length + ·)) := by
  induction t generalizing p with
  | nil =>
    cases p with
    | code w => exact .never (flush_kind _ (wordKind_ne_comment _ _))
    | string z s => exact .never (by simp [pieces])
  | cons c t ih =>
    by_cases hb : p.zone = .code ∧ beginsComment c t = true
    · obtain ⟨hz, hb⟩ := hb
      cases p with
      | string z s => exact absurd (congrArg (Place.string · s) hz) (hp s)
      | code w =>
        have := EndsInComment.last (c :: t) (flush_kind w (k := .rawWord) (by decide))
        rw [pieces, if_pos hb, hz, commentAt?_here hb]
        rw [text_flush] at this
        exact this
    · have hplain : p.zone = .code → beginsComment c t = false := by
        intro hz
        exact Bool.eq_false_of_not_eq_true fun h => hb ⟨hz, h⟩
      obtain ⟨front, q, hpieces, hfront, hq, hzone, hread⟩ := pieces_next hp hplain
      have hlength : (front.flatMap (·.text)).length + q.read.length = p.read.length + 1 := by
        rw [← List.length_append, hread, List.length_append]
        rfl
      rw [hpieces, commentAt?_next hplain, ← hzone, ← hlength]
      exact (ih hq).behind hfront

/-- The text of a line is kept, and its comment is the one that the reader finds: there is a piece
that is a comment if and only if the reader finds a mark in code, be it the mark where it takes a line
comment off or that of a block comment. That piece is the last one and begins at the first of these
marks. -/
theorem comment_at_first_mark (line : Text) :
    (ofLine line).flatMap (·.text) = line ∧
      uncommentTail line = line.take ((markAt? lineMark .code line).getD line.length) ∧
      ((∃ x ∈ ofLine line, x.kind = .comment) ↔
        (markAt? lineMark .code line).isSome ∨ (markAt? openMark .code line).isSome) ∧
      ∀ before x after, ofLine line = before ++ x :: after → x.kind = .comment →
        after = [] ∧ commentAt? .code line = some (before.flatMap (·.text)).length := by
  have ends : EndsInComment (ofLine line) (commentAt? .code line) := by
    have := pieces_endInComment (Place.sound_code []) line
    simpa [ofLine, Place.zone, Place.read] using this
  refine ⟨text_ofLine line, uncommentTail_eq_take line, ?_, ?_⟩
  · rw [ends.exists_iff, commentAt?, Option.isSome_merge, Bool.or_eq_true]
  · intro before x after h hx
    rw [h] at ends
    exact ends.place_eq hx

theorem comment_at_first_mark_quoted :
    let line := "send(\"é\\\" // \") /* off // on".toList
    markAt? lineMark .code line = some 23 ∧ markAt? openMark .code line = some 16 ∧
      (ofLine line).getLast? = some ⟨.comment, "/* off // on".toList⟩ ∧
      commentAt? .code line = some ((ofLine line).dropLast.flatMap (·.text)).length := by
  intro line
  have hlast : ofLine line = (ofLine line).dropLast ++ [⟨.comment, "/* off // on".toList⟩] := by decide +kernel
  have := ((comment_at_first_mark line).2.2.2 _ _ _ hlast rfl).2
  exact ⟨by decide +kernel, by decide +kernel, by decide +kernel, this⟩

end Pane.Piece

end Breadboard
