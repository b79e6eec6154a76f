/-
  Breadboard.Proofs.Sketch.Layout — the layout of a sketch does not matter.

  White space at the ends of a line is copied by the scan for block comments, or dropped with a
  comment, and trimmed away behind it, so the reader does with a line what it does with its trimmed
  part, wherever it stands (`Reader.step_trim`). That takes in a carriage return at the end of a line:
  the reader goes by the pieces between line feeds (`Reader.read_eq_pieces`). A line of white space, or
  a line comment that has no mark of a block comment, leaves the reader as it is (`Idle.step`).

  Proved: a sketch is the same program when its lines are indented or get white space at their ends
  (`Text.Padded`), carriage returns at all line feeds among it, and a line that is put in and has no
  code only moves down the nodes below it (`ofSource_of_layout`).
-/

import Breadboard.Proofs.Sketch.Alignment
import Breadboard.Proofs.Sketch.BlockComment
import Breadboard.Proofs.Sketch.Chunks
import Breadboard.Proofs.Sketch.Extent
import Breadboard.Proofs.Sketch.Rewording

namespace Breadboard

namespace Sketch

/-! ## White space around a line -/

namespace Place

variable {g : Text}

theorem pass_comment_gap (hg : IsGap g) (t : Text) : pass comment (g ++ t) = pass comment t := by
  induction g with
  | nil => rfl
  | cons c g ih =>
    rw [IsGap, List.forall_mem_cons] at hg
    rw [List.cons_append, pass_comment fun h => Text.ne_of_isBlank hg.1 (by decide) h.1]
    exact ih hg.2

theorem pass_code_gap (hg : IsGap g) (t : Text) :
    pass (outside .code) (g ++ t) = (g ++ (pass (outside .code) t).1, (pass (outside .code) t).2) := by
  have slashless : Zone.AllCode (· ≠ '/') .code g :=
    Zone.allCode_of_forall (Text.not_mem_gap hg (by decide)) fun c hc => Text.ne_of_isBlank (hg c hc) (by decide)
  rw [pass_of_allCode slashless, after_gap hg]

/-- White space neither opens nor ends a comment, in a string or elsewhere. -/
theorem isComment_pass_gap (hg : IsGap g) (p : Place) : (pass p g).2.isComment = p.isComment := by
  induction g generalizing p with
  | nil => rw [pass_nil]
  | cons c g ih =>
    rw [IsGap, List.forall_mem_cons] at hg
    cases p with
    | comment =>
      rw [pass_comment fun h => Text.ne_of_isBlank hg.1 (by decide) h.1]
      exact ih hg.2 comment
    | outside z =>
      rw [pass_outside fun h => Text.ne_of_isBlank hg.1 (by decide) h.2.1]
      exact ih hg.2 (outside (z.next c))

end Place

theorem uncomment_gap_left {g : Text} (hg : IsGap g) (flag : Bool) (t : Text) :
    ∃ g', IsGap g' ∧ uncomment flag (g ++ t) = (g' ++ (uncomment flag t).1, (uncomment flag t).2) := by
  simp only [uncomment_eq_pass]
  cases flag with
  | true =>
    refine ⟨[], by decide, ?_⟩
    rw [Place.ofFlag, if_pos rfl, Place.pass_comment_gap hg]
    rfl
  | false =>
    refine ⟨g, hg, ?_⟩
    rw [Place.ofFlag, if_neg Bool.false_ne_true, Place.pass_code_gap hg]

theorem uncomment_gap_right {g : Text} (hg : IsGap g) (flag : Bool) (t : Text) :
    ∃ g', IsGap g' ∧ uncomment flag (t ++ g) = ((uncomment flag t).1 ++ g', (uncomment flag t).2) := by
  -- a mark of a comment does not reach over the end of the line into the gap
  have first : ∀ c, Text.isBlank c = false → g.head? ≠ some c := by
    intro c hc h
    exact Text.not_mem_gap hg hc (List.mem_of_mem_head? h)
  simp only [uncomment_eq_pass]
  rw [Place.pass_append (first '*' (by decide)) fun _ => first '/' (by decide)]
  refine ⟨(Place.pass (Place.pass (.ofFlag flag) t).2 g).1, ?_, ?_⟩
  · intro c hc
    exact hg c ((Place.pass_sublist _ _).subset hc)
  · rw [Place.isComment_pass_gap hg]

theorem kept?_gaps {g h : Text} (hg : IsGap g) (hh : IsGap h) (u : Text) : kept? (g ++ (u ++ h)) = kept? u := by
  unfold kept?
  rw [Text.trim_gaps hg hh]

namespace Reader

theorem step_gaps (r : Reader) {g h : Text} (hg : IsGap g) (hh : IsGap h) (l : Text) :
    r.step (g ++ (l ++ h)) = r.step l := by
  obtain ⟨g', hg', hl⟩ := uncomment_gap_left hg r.inComment (l ++ h)
  obtain ⟨h', hh', hr⟩ := uncomment_gap_right hh r.inComment l
  rw [hr] at hl
  unfold step
  rw [hl]
  simp only [kept?_gaps hg' hh']

/-- Wherever it stands, the reader does with a line what it does with its trimmed part. -/
theorem step_trim (r : Reader) (l : Text) : r.step (Text.trim l) = r.step l := by
  obtain ⟨g, h, hg, hh, hl⟩ := Text.exists_trim l
  have hs := r.step_gaps hg hh (Text.trim l)
  rw [← hl] at hs
  exact hs.symm

theorem readFrom_map_trim (r : Reader) (n : Nat) (ls : List Text) :
    r.readFrom n (ls.map Text.trim) = r.readFrom n ls := by
  induction ls generalizing r n with
  | nil => rfl
  | cons l ls ih => rw [List.map_cons, readFrom_cons, readFrom_cons, step_trim, ih]

theorem readFrom_congr_trim {ls ls' : List Text} (h : ls.map Text.trim = ls'.map Text.trim) (r : Reader) (n : Nat) :
    r.readFrom n ls = r.readFrom n ls' := by
  rw [← readFrom_map_trim, h, readFrom_map_trim]

end Reader

/-! ## Lines without code -/

/-- White space, or a line comment in which no block comment begins or ends. -/
def Idle (line : Text) : Prop :=
  IsGap line ∨ (lineMark <+: line ∧ ¬ openMark <:+: line ∧ ¬ closeMark <:+: line)

theorem idle_nil : Idle [] := Or.inl (by decide)

theorem Idle.no_mark {line : Text} (h : Idle line) : ¬ openMark <:+: line ∧ ¬ closeMark <:+: line := by
  rcases h with hg | ⟨-, marks⟩
  · have slash : '/' ∉ line := Text.not_mem_gap hg (by decide)
    exact ⟨fun h => slash (h.subset (by decide)), fun h => slash (h.subset (by decide))⟩
  · exact marks

theorem Idle.kept? {line : Text} (h : Idle line) : Sketch.kept? line = none := by
  rcases h with hg | ⟨⟨t, rfl⟩, -⟩
  · have blank : Sketch.kept? (line ++ ([] ++ [])) = Sketch.kept? [] := kept?_gaps hg (by decide) []
    rw [List.append_nil, List.append_nil] at blank
    exact blank
  · have ht : Text.trim (lineMark ++ t) = lineMark ++ Text.trimEnd t := by
      rw [lineMark_append, Text.trim_cons (by decide), Text.trimEnd_cons (by decide)]
      rfl
    rw [Sketch.kept?, ht]
    rfl

/-- Inside a comment there is no end of it, and outside nothing to keep. -/
theorem Idle.step {line : Text} (h : Idle line) (r : Reader) : r.step line = (r, none) := by
  obtain ⟨block, depth, inComment⟩ := r
  cases inComment with
  | true => rw [Reader.step_of_dropped (uncomment_body h.no_mark.2) rfl]
  | false => rw [Reader.step_of_dropped (uncomment_of_not_cutCode (cutCode_eq_none h.no_mark.1 .code)) h.kept?]

namespace Reader

theorem readFrom_idle_last (r : Reader) (n : Nat) (ls : List Text) {line : Text} (h : Idle line) :
    r.readFrom n (ls ++ [line]) = r.readFrom n ls := by
  rw [readFrom_append, readFrom_cons, h.step]
  show (_, Program.append _ {}) = _
  rw [Program.append_empty]
  rfl

/-- A carriage return in front of a line feed is white space, and what is empty behind the last one is no line. -/
theorem read_eq_pieces (r : Reader) (t : Text) : r.read t = r.readFrom 1 (Text.pieces '\n' t) := by
  obtain ⟨ls, l, rfl, hls, hl⟩ := Text.exists_lines t
  have returns : (ls.map Text.dropReturn).map Text.trim = ls.map Text.trim := by
    rw [List.map_map]
    exact List.map_congr_left fun x _ => Text.trim_dropReturn x
  rw [read, Text.lines_completed hls, Text.pieces_completed hls hl]
  by_cases hne : l = []
  · subst hne
    rw [readFrom_idle_last r 1 ls idle_nil]
    refine readFrom_congr_trim ?_ r 1
    rw [List.map_append, returns]
    exact List.append_nil _
  · rw [Text.lines_last hl hne]
    refine readFrom_congr_trim ?_ r 1
    rw [List.map_append, List.map_append, returns]

theorem read_congr_pieces {s t : Text} (h : (Text.pieces '\n' s).map Text.trim = (Text.pieces '\n' t).map Text.trim)
    (r : Reader) : r.read s = r.read t := by
  rw [read_eq_pieces, read_eq_pieces, readFrom_congr_trim h]

theorem line_bounds {r : Reader} {n : Nat} {ls : List Text} {b : Block} {x : Node}
    (hx : x ∈ (r.readFrom n ls).2.block b) : n ≤ x.line ∧ x.line < n + ls.length := by
  obtain ⟨k, l, hl, hline, -⟩ := exists_line hx
  have hk := (List.getElem?_eq_some_iff.1 hl).1
  omega

end Reader

end Sketch

/-- The node after a line was put in behind the first `k` lines. -/
def Node.pushed (k : Nat) (x : Node) : Node := if k < x.line then x.down 1 else x

theorem Sketch.Reader.block_insert (r : Reader) (xs ys : List Text) {line : Text} (h : Idle line) (b : Block) :
    (r.readFrom 1 (xs ++ line :: ys)).2.block b =
      ((r.readFrom 1 (xs ++ ys)).2.block b).map (·.pushed xs.length) := by
  rw [readFrom_append, readFrom_cons, h.step, readFrom_add _ (1 + xs.length) 1, readFrom_append]
  simp only [Program.block_append, Program.block_down, List.map_append]
  congr 1
  · refine (List.map_id _).symm.trans (List.map_congr_left ?_)
    intro x hx
    have hb := line_bounds hx
    have above : ¬ xs.length < x.line := by omega
    rw [Node.pushed, if_neg above]
    rfl
  · refine List.map_congr_left ?_
    intro x hx
    have hb := line_bounds hx
    have below : xs.length < x.line := by omega
    rw [Node.pushed, if_pos below]

/-! ## Layouts of a text -/

namespace Text

/-- White space without line feeds. -/
def Margin (g : Text) : Prop := Sketch.IsGap g ∧ '\n' ∉ g

instance (g : Text) : Decidable (Margin g) := inferInstanceAs (Decidable (Sketch.IsGap g ∧ '\n' ∉ g))

/-- Lines get white space at their beginnings and ends. A carriage return in front of a line feed may be taken as part of
the line or of its end. -/
inductive Padded : Text → Text → Prop
  | last {g h l : Text} : Margin g → Margin h → '\n' ∉ l → Padded l (g ++ (l ++ h))
  | line {g h l e s t : Text} :
      Margin g → Margin h → '\n' ∉ l → e = [] ∨ e = ['\r'] → Padded s t →
        Padded (l ++ (e ++ '\n' :: s)) (g ++ (l ++ (h ++ (e ++ '\n' :: t))))

/-- With a carriage return in front of each line feed. -/
def withReturns (t : Text) : Text := t.flatMap fun c => if c = '\n' then ['\r', '\n'] else [c]

/-- A line is put in where a line begins or the text ends, with so many lines above it. -/
inductive Inserted (line : Text) : Nat → Text → Text → Prop
  | before {above below : Text} :
      EndsLine above → Inserted line (above.count '\n') (above ++ below) (above ++ (line ++ '\n' :: below))
  /-- At the end, with no line feed behind it. -/
  | last {above : Text} : EndsLine above → Inserted line (above.count '\n') above (above ++ line)
  /-- Behind the last line, which gets a line feed. -/
  | behind {above : Text} : Inserted line (above.count '\n' + 1) above (above ++ '\n' :: line)

/-- The pieces between line feeds differ in the white space at their ends alone. -/
theorem Padded.pieces {s t : Text} (h : Padded s t) : (pieces '\n' s).map trim = (pieces '\n' t).map trim := by
  induction h with
  | @last g h l hg hh hl =>
    have hn : '\n' ∉ g ++ (l ++ h) := by simp [hg.2, hh.2, hl]
    rw [pieces_of_not_mem hl, pieces_of_not_mem hn, List.map_singleton, List.map_singleton, trim_gaps hg.1 hh.1]
  | @line g h l e s t hg hh hl he _ ih =>
    have ending : Sketch.IsGap e ∧ '\n' ∉ e := by rcases he with rfl | rfl <;> decide
    have first : trim (l ++ e) = trim (g ++ (l ++ (h ++ e))) := by
      have gap : Sketch.IsGap (h ++ e) := List.forall_mem_append.2 ⟨hh.1, ending.1⟩
      rw [trim_gap ending.1, trim_gaps hg.1 gap]
    have hle : '\n' ∉ l ++ e := by simp [hl, ending.2]
    have hn : '\n' ∉ g ++ (l ++ (h ++ e)) := by simp [hg.2, hh.2, hl, ending.2]
    have hs : l ++ (e ++ '\n' :: s) = (l ++ e) ++ '\n' :: s := by simp
    have ht : g ++ (l ++ (h ++ (e ++ '\n' :: t))) = (g ++ (l ++ (h ++ e))) ++ '\n' :: t := by simp
    rw [hs, ht, pieces_append, pieces_append, pieces_of_not_mem hle, pieces_of_not_mem hn, List.map_append,
      List.map_append, ih, List.map_singleton, List.map_singleton, first]

theorem withReturns_of_not_mem {t : Text} (h : '\n' ∉ t) : withReturns t = t := by
  induction t with
  | nil => rfl
  | cons c t ih =>
    rw [List.mem_cons, not_or] at h
    rw [withReturns, List.flatMap_cons, if_neg (Ne.symm h.1)]
    exact congrArg (c :: ·) (ih h.2)

theorem withReturns_line {l : Text} (h : '\n' ∉ l) (t : Text) :
    withReturns (l ++ '\n' :: t) = l ++ '\r' :: '\n' :: withReturns t := by
  have hl : withReturns l = l := withReturns_of_not_mem h
  rw [withReturns] at hl ⊢
  rw [List.flatMap_append, hl]
  rfl

theorem padded_withReturns (t : Text) : Padded t (withReturns t) := by
  obtain ⟨ls, l, rfl, hls, hl⟩ := exists_lines t
  have none : Margin [] := by decide
  have carriageReturn : Margin ['\r'] := by decide
  induction ls with
  | nil =>
    have h := Padded.last none none hl
    rw [List.append_nil, List.nil_append] at h
    rw [List.flatMap_nil, List.nil_append, withReturns_of_not_mem hl]
    exact h
  | cons x ls ih =>
    rw [List.forall_mem_cons] at hls
    have h := Padded.line none carriageReturn hls.1 (Or.inl rfl) (ih hls.2)
    rw [List.flatMap_cons, List.append_assoc, List.append_assoc, List.singleton_append, withReturns_line hls.1]
    exact h

end Text

namespace Sketch

theorem Reader.block_inserted (r : Reader) {line source t : Text} {k : Nat} (hi : Idle line) (hn : '\n' ∉ line)
    (h : Text.Inserted line k source t) (b : Block) :
    (r.read t).2.block b = ((r.read source).2.block b).map (·.pushed k) := by
  simp only [read_eq_pieces]
  cases h with
  | before starts =>
    obtain ⟨ps, hk, hps⟩ := starts.exists_pieces
    rw [hps, hps, Text.pieces_append, Text.pieces_of_not_mem hn, ← hk]
    exact r.block_insert ps _ hi b
  | last starts =>
    -- the line takes the place of the empty piece behind the last line feed
    obtain ⟨ps, hk, hps⟩ := starts.exists_pieces
    have hsource := hps []
    have insert := r.block_insert ps [] hi b
    rw [List.append_nil] at hsource insert
    rw [hsource, hps, Text.pieces_of_not_mem hn, ← hk]
    show _ = ((r.readFrom 1 (ps ++ [[]])).2.block b).map _
    rw [r.readFrom_idle_last 1 ps idle_nil]
    exact insert
  | behind =>
    have insert := r.block_insert (Text.pieces '\n' source) [] hi b
    rw [List.append_nil, Text.length_pieces] at insert
    rw [Text.pieces_append, Text.pieces_of_not_mem hn]
    exact insert

/-- White space other than line feeds at the beginnings and ends of lines, and carriage returns in front of all line feeds,
leave the program of a sketch as it is, with its texts and line numbers. A line of white space that is put in, or a line
comment without a mark of a block comment, adds one to the line numbers of the nodes below it and does no more. -/
theorem ofSource_of_layout (source : Text) :
    (∀ t, Text.Padded source t → Program.ofSource t = Program.ofSource source) ∧
      Program.ofSource (Text.withReturns source) = Program.ofSource source ∧
      ∀ line, Idle line → '\n' ∉ line → ∀ k t, Text.Inserted line k source t →
        ∀ b, (Program.ofSource t).block b = ((Program.ofSource source).block b).map (·.pushed k) := by
  have padded : ∀ t, Text.Padded source t → Program.ofSource t = Program.ofSource source := by
    intro t h
    exact congrArg Prod.snd (Reader.read_congr_pieces h.pieces.symm {})
  refine ⟨padded, padded _ (Text.padded_withReturns source), ?_⟩
  intro line idle oneLine k t h b
  exact Reader.block_inserted {} idle oneLine h b

/-- The white space is put in around a block comment, and the line inside it. -/
theorem ofSource_of_layout_blink :
    let source := "void loop()\n\x7b /* on\r\n*/ delay(5);\n\x7d".toList
    let padded := "\tvoid loop()\u3000\n\x7b /* on  \r\n */ delay(5);\r\n\x7d ".toList
    let remark := "// off".toList
    let longer := "void loop()\n\x7b /* on\r\n// off\n*/ delay(5);\n\x7d".toList
    Text.Padded source padded ∧ Idle remark ∧ '\n' ∉ remark ∧ Text.Inserted remark 2 source longer ∧
      Program.ofSource padded = Program.ofSource source ∧
      Program.ofSource (Text.withReturns source) = Program.ofSource source ∧
      (Program.ofSource longer).loop = (Program.ofSource source).loop.map (·.pushed 2) ∧
      (Program.ofSource source).loop = [⟨.delay 5, "delay(5);".toList, 3⟩] ∧
      (Program.ofSource longer).loop = [⟨.delay 5, "delay(5);".toList, 4⟩] := by
  intro source padded remark longer
  have pad : Text.Padded source padded :=
    .line (g := ['\t']) (h := ['\u3000']) (l := "void loop()".toList) (e := []) (by decide) (by decide) (by decide)
      (Or.inl rfl) <|
    .line (g := []) (h := [' ', ' ']) (l := "\x7b /* on".toList) (e := ['\r']) (by decide) (by decide) (by decide)
      (Or.inr rfl) <|
    .line (g := [' ']) (h := ['\r']) (l := "*/ delay(5);".toList) (e := []) (by decide) (by decide) (by decide)
      (Or.inl rfl) <|
    .last (g := []) (h := [' ']) (l := ['\x7d']) (by decide) (by decide) (by decide)
  have idle : Idle remark := Or.inr (by decide)
  have starts : Text.EndsLine "void loop()\n\x7b /* on\r\n".toList :=
    Or.inr ⟨"void loop()\n\x7b /* on\r".toList, by decide⟩
  have insert : Text.Inserted remark 2 source longer := @Text.Inserted.before remark _ "*/ delay(5);\n\x7d".toList starts
  obtain ⟨same, returns, more⟩ := ofSource_of_layout source
  exact ⟨pad, idle, by decide, insert, same padded pad, returns, more remark idle (by decide) 2 longer insert .loop,
    by decide +kernel, by decide +kernel⟩

end Sketch

end Breadboard
