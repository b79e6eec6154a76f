/-
  Breadboard.Proofs.Sketch.Rewording — which lines a block takes does not depend on what strings say.

  A source is `Reworded` when string literals that stand outside its comments, by the usual rules
  (`Spot`), are given other contents. Line by line the reader's scan keeps `Alike` texts of the two
  (`Reworded.uncomment`) and is left in a block comment by both or by none; where the comments are
  harmless it also stands at the beginning of each line where the rules say, so that what is reworded
  there is a string for the reader too.

  Proved: both sources give nodes to the same lines, as long as no line that declares a block has an
  opening brace in its code in just one of them (`numbers_eq_of_reworded`). The test for an opening
  brace on such a line is the only one that looks into strings, and it tells any two contents apart of
  which just one has an opening brace.
-/

import Mathlib
import Breadboard.Proofs.Sketch.Alike
import Breadboard.Proofs.Sketch.Spot

namespace Breadboard

/-- The line numbers of a block, in order. -/
def Program.numbers (p : Program) (b : Block) : List Nat := (p.block b).map (·.line)

namespace Sketch

/-- The same source from a spot on, up to what its string literals outside comments say. -/
inductive Reworded : Spot → Text → Text → Prop
  | nil {s : Spot} : Reworded s [] []
  | char {s : Spot} {t t' : Text} (c : Char) : Reworded (s.next c) t t' → Reworded s (c :: t) (c :: t')
  | strings {s : Spot} {a b t t' : Text} : s.InCode → Contents a → Contents b → Reworded (.plain .code) t t' →
      Reworded s (literal a ++ t) (literal b ++ t')

/-! ## String literals -/

theorem Contents.newline_not_mem {a : Text} (h : Contents a) : '\n' ∉ literal a := by
  simp [literal, h.newline]

theorem dropReturn_literal (a t : Text) : Text.dropReturn (literal a ++ t) = literal a ++ Text.dropReturn t := by
  cases t with
  | nil =>
    rw [List.append_nil, literal, Text.dropReturn_append _ (by simp)]
    simp [Text.dropReturn]
  | cons c t => exact Text.dropReturn_append _ (by simp)

/-- Code without slashes is passed over. -/
theorem pass_of_allCode {z : Zone} {t : Text} (h : Zone.AllCode (· ≠ '/') z t) (u : Text) :
    Place.pass (.outside z) (t ++ u) =
      (t ++ (Place.pass (.outside (z.after t)) u).1, (Place.pass (.outside (z.after t)) u).2) := by
  induction t generalizing z with
  | nil => rfl
  | cons c t ih =>
    rw [List.cons_append, Place.pass_outside fun hc => h.1 hc.1 hc.2.1, ih h.2]
    rfl

namespace Spot

variable {s : Spot} {z : Zone} {a t : Text}

theorem after_of_allCode (hn : '\n' ∉ t) (h : Zone.AllCode (· ≠ '/') z t) :
    (plain z).after t = plain (z.after t) := by
  induction t generalizing z with
  | nil => rfl
  | cons c t ih =>
    rw [List.mem_cons, not_or] at hn
    rw [after_cons, next_plain (Ne.symm hn.1) fun hc => h.1 hc.1 hc.2, ih hn.2 h.2, Zone.after_cons]

theorem after_literal (hs : s.InCode) (ha : Contents a) : s.after (literal a) = plain .code := by
  have slashless : Zone.Stretch (· ≠ '/') (literal a) := ha.stretch (by decide)
  have hplain : (plain .code).after (literal a) = plain .code := by
    rw [after_of_allCode ha.newline_not_mem slashless.allCode, slashless.closed]
  rcases hs.cases with rfl | rfl
  · exact hplain
  · -- The quote behind a slash begins the string as it does elsewhere in code.
    exact hplain

/-- The scan keeps a string literal as it is. -/
theorem keeps_literal (hs : s.InCode) (ha : Contents a) : Keeps s (plain .code) (literal a) (s.pending ++ literal a) := by
  have slashless : Zone.Stretch (· ≠ '/') (literal a) := ha.stretch (by decide)
  have hpass := pass_of_allCode slashless.allCode
  rw [slashless.closed] at hpass
  rcases hs.cases with rfl | rfl
  · exact ⟨hpass, slashless.closed⟩
  · refine ⟨fun u => ?_, slashless.closed⟩
    have hslash : Place.pass (.outside .code) ('/' :: (literal a ++ u)) = _ := Place.pass_outside (by simp [literal])
    show Place.pass (.outside .code) ('/' :: (literal a ++ u)) = _
    rw [hslash, show Zone.code.next '/' = .code from rfl, hpass]
    rfl

end Spot

namespace Reworded

variable {s : Spot} {t t' l u : Text}

theorem refl (s : Spot) (t : Text) : Reworded s t t := by
  induction t generalizing s with
  | nil => exact nil
  | cons c t ih => exact char c (ih _)

theorem prepend {k : Text} (h : Reworded (s.after k) t t') : Reworded s (k ++ t) (k ++ t') := by
  induction k generalizing s with
  | nil => exact h
  | cons c k ih => exact char c (ih h)

theorem append (h : Reworded s t t') (u : Text) : Reworded s (t ++ u) (t' ++ u) := by
  induction h with
  | nil => exact refl _ u
  | char c _ ih => exact char c ih
  | strings hs ha hb _ ih =>
    rw [List.append_assoc, List.append_assoc]
    exact strings hs ha hb ih

theorem eq_nil_iff (h : Reworded s t t') : t = [] ↔ t' = [] := by
  cases h <;> simp [literal]

/-! ## Lines -/

theorem newline_not_mem (h : Reworded s t t') (hn : '\n' ∉ t) : '\n' ∉ t' := by
  induction h with
  | nil => exact hn
  | char c _ ih =>
    rw [List.mem_cons, not_or] at hn ⊢
    exact ⟨hn.1, ih hn.2⟩
  | strings _ _ hb _ ih =>
    rw [List.mem_append, not_or] at hn ⊢
    exact ⟨hb.newline_not_mem, ih hn.2⟩

/-- A line of a reworded source is reworded. -/
theorem exists_line (h : Reworded s t t') (ht : t = l ++ '\n' :: u) (hn : '\n' ∉ l) :
    ∃ l' u', t' = l' ++ '\n' :: u' ∧ '\n' ∉ l' ∧ Reworded s l l' ∧ Reworded (.ofFlag (s.after l).inBlock) u u' := by
  induction h generalizing l with
  | nil => simp at ht
  | @char s t t' c h ih =>
    rcases l with _ | ⟨d, l⟩
    · obtain ⟨rfl, rfl⟩ := List.cons.inj ht
      rw [Spot.next_newline] at h
      exact ⟨[], t', rfl, List.not_mem_nil, nil, h⟩
    · obtain ⟨rfl, rfl⟩ := List.cons.inj ht
      rw [List.mem_cons, not_or] at hn
      obtain ⟨l', u', rfl, hn', hl, hu⟩ := ih rfl hn.2
      exact ⟨c :: l', u', rfl, by simp [hn.1, hn'], char c hl, hu⟩
  | @strings s a b t t' hs ha hb h ih =>
    obtain ⟨m, rfl, hm⟩ : ∃ m, l = literal a ++ m ∧ t = m ++ '\n' :: u := by
      rcases List.append_eq_append_iff.1 ht with ⟨m, hm, ht⟩ | ⟨m, hm, ht⟩
      · exact ⟨m, hm, ht⟩
      · rcases m with _ | ⟨d, m⟩
        · exact ⟨[], by simpa using hm.symm, ht.symm⟩
        · rw [List.cons_append] at ht
          obtain ⟨rfl, -⟩ := List.cons.inj ht
          exact absurd (by rw [hm]; simp) ha.newline_not_mem
    rw [List.mem_append, not_or] at hn
    obtain ⟨l', u', rfl, hn', hl, hu⟩ := ih hm hn.2
    refine ⟨literal b ++ l', u', by simp, ?_, strings hs ha hb hl, ?_⟩
    · rw [List.mem_append, not_or]
      exact ⟨hb.newline_not_mem, hn'⟩
    · rwa [Spot.after_append, Spot.after_literal hs ha]

theorem dropReturn (h : Reworded s t t') : Reworded s (Text.dropReturn t) (Text.dropReturn t') := by
  induction h with
  | nil => exact nil
  | @char s t t' c h ih =>
    by_cases ht : t = []
    · rw [ht, h.eq_nil_iff.1 ht]
      exact refl s _
    · rw [Text.dropReturn_cons ht, Text.dropReturn_cons (mt h.eq_nil_iff.2 ht)]
      exact char c ih
  | strings hs ha hb _ ih =>
    rw [dropReturn_literal, dropReturn_literal]
    exact strings hs ha hb ih

/-- The first lines of two versions that go on in the same way. -/
theorem lines_append (h : Reworded s l t') (hn : '\n' ∉ l) (hu : Text.BreaksLine u) :
    l ++ u = [] ∧ t' ++ u = [] ∨
      ∃ x x' ls, Text.lines (l ++ u) = x :: ls ∧ Text.lines (t' ++ u) = x' :: ls ∧ Reworded s x x' ∧ '\n' ∉ x := by
  have hn' := h.newline_not_mem hn
  rcases hu with rfl | ⟨u, rfl⟩
  · rw [List.append_nil, List.append_nil]
    by_cases hl : l = []
    · exact Or.inl ⟨hl, h.eq_nil_iff.1 hl⟩
    · exact Or.inr ⟨l, t', [], Text.lines_last hn hl, Text.lines_last hn' (mt h.eq_nil_iff.2 hl), h, hn⟩
  · refine Or.inr ⟨_, _, Text.lines u, Text.lines_line hn u, Text.lines_line hn' u, h.dropReturn, fun hm => ?_⟩
    exact hn (Text.mem_of_mem_dropReturn hm)

/-! ## The scan -/

/-- There are no strings in a line comment. -/
theorem eq_of_remark (h : Reworded .remark t t') (hn : '\n' ∉ t) : t = t' := by
  obtain ⟨s, hs⟩ : ∃ s, s = Spot.remark := ⟨_, rfl⟩
  rw [← hs] at h
  induction h with
  | nil => rfl
  | char c _ ih =>
    rw [List.mem_cons, not_or] at hn
    subst hs
    rw [ih hn.2 (Spot.next_remark (Ne.symm hn.1))]
  | strings hc =>
    subst hs
    exact absurd hc id

theorem pass (h : Reworded s t t') (hs : s ≠ .remark) (hn : '\n' ∉ t) :
    Alike s.zone (s.place.pass (s.pending ++ t)).1 (s.place.pass (s.pending ++ t')).1 ∧
      (s.place.pass (s.pending ++ t)).2 = (s.place.pass (s.pending ++ t')).2 := by
  induction h with
  | nil => exact ⟨Alike.refl _ _, rfl⟩
  | @char s t t' c h ih =>
    rw [List.mem_cons, not_or] at hn
    by_cases hc : s.next c = .remark
    · rw [hc] at h
      rw [h.eq_of_remark hn.2]
      exact ⟨Alike.refl _ _, rfl⟩
    · obtain ⟨k, hk⟩ := Spot.pass_next hs (Ne.symm hn.1) hc
      obtain ⟨halike, hplace⟩ := ih hc hn.2
      have hl := hk.pass t
      have hr := hk.pass t'
      rw [List.singleton_append] at hl hr
      rw [hl, hr]
      rw [← hk.zone] at halike
      exact ⟨halike.prepend, hplace⟩
  | @strings s a b t t' hcode ha hb h ih =>
    rw [List.mem_append, not_or] at hn
    obtain ⟨halike, hplace⟩ := ih (by simp) hn.2
    rw [(Spot.keeps_literal hcode ha).pass, (Spot.keeps_literal hcode hb).pass]
    refine ⟨?_, hplace⟩
    rw [List.append_assoc, List.append_assoc]
    have hzone : s.zone.after s.pending = .code := by
      rcases hcode.cases with rfl | rfl <;> rfl
    refine Alike.prepend ?_
    rw [hzone]
    exact .strings ha hb halike

theorem uncomment {flag : Bool} (h : Reworded (.ofFlag flag) t t') (hn : '\n' ∉ t) :
    Alike .code (uncomment flag t).1 (uncomment flag t').1 ∧ (uncomment flag t).2 = (uncomment flag t').2 := by
  obtain ⟨halike, hplace⟩ := h.pass (by cases flag <;> simp [Spot.ofFlag]) hn
  rw [Spot.place_ofFlag, Spot.pending_ofFlag, List.nil_append, List.nil_append] at halike hplace
  rw [Spot.zone_ofFlag] at halike
  rw [uncomment_eq_pass, uncomment_eq_pass, hplace]
  exact ⟨halike, rfl⟩

end Reworded

/-! ## The reader -/

/-- The code of a line as the reader keeps it: without comments and without blanks around it. -/
def keptCode (inComment : Bool) (raw : Text) : Text := ((kept? (uncomment inComment raw).1).map codeOf).getD []

/-- The code of each line. -/
def codes : Bool → List Text → List Text
  | _, [] => []
  | inComment, raw :: rest => keptCode inComment raw :: codes (uncomment inComment raw).2 rest

/-- If a line declares a block, its two versions both have an opening brace, in a string or outside, or neither has. -/
def SameOpening (code code' : Text) : Prop := signature? code ≠ none → ('{' ∈ code ↔ '{' ∈ code')

instance (code code' : Text) : Decidable (SameOpening code code') := inferInstanceAs (Decidable (_ → _))

/-- The same of all lines. -/
def SameOpenings (inComment : Bool) (ls ls' : List Text) : Prop :=
  ∀ p ∈ (codes inComment ls).zip (codes inComment ls'), SameOpening p.1 p.2

instance (inComment : Bool) (ls ls' : List Text) : Decidable (SameOpenings inComment ls ls') :=
  inferInstanceAs (Decidable (∀ p ∈ _, SameOpening _ _))

theorem sameOpenings_cons {inComment : Bool} {l l' : Text} {ls ls' : List Text} :
    SameOpenings inComment (l :: ls) (l' :: ls') ↔ SameOpening (keptCode inComment l) (keptCode inComment l') ∧
      ∀ p ∈ (codes (uncomment inComment l).2 ls).zip (codes (uncomment inComment l').2 ls'), SameOpening p.1 p.2 := by
  rw [SameOpenings, codes, codes, List.zip_cons_cons, List.forall_mem_cons]

theorem SameOpenings.refl (inComment : Bool) (ls : List Text) : SameOpenings inComment ls ls := by
  intro p hp _
  rw [List.zip, List.zipWith_self, List.mem_map] at hp
  obtain ⟨code, -, rfl⟩ := hp
  rfl

namespace Reader

variable {r : Reader} {n : Nat}

theorem numbers_readFrom_cons (r : Reader) (n : Nat) (raw : Text) (rest : List Text) (b : Block) :
    (r.readFrom n (raw :: rest)).2.numbers b =
      (if (r.step raw).2.map Prod.fst = some b then [n] else []) ++
        ((r.step raw).1.readFrom (n + 1) rest).2.numbers b := by
  rw [readFrom_cons]
  rcases (r.step raw).2 with _ | ⟨b', text⟩
  · rfl
  · by_cases hb : b' = b
    · simp [Program.numbers, Program.block_cons, hb]
    · simp [Program.numbers, Program.block_cons, hb]

/-- Two versions of a line leave the reader alike and are taken by the same block. -/
theorem step_reworded {l l' : Text} (h : Reworded (.ofFlag r.inComment) l l') (hn : '\n' ∉ l)
    (opening : SameOpening (keptCode r.inComment l) (keptCode r.inComment l')) :
    (r.step l).1 = (r.step l').1 ∧ (r.step l).2.map Prod.fst = (r.step l').2.map Prod.fst := by
  obtain ⟨halike, hflag⟩ := h.uncomment hn
  have hl : uncomment r.inComment l = ((uncomment r.inComment l).1, (uncomment r.inComment l').2) := by rw [← hflag]
  rcases halike.kept? with ⟨hk, hk'⟩ | ⟨k, k', hk, hk', halike⟩
  · rw [step_of_dropped hl hk, step_of_dropped rfl hk']
    exact ⟨rfl, rfl⟩
  · unfold keptCode at opening
    rw [hk, hk'] at opening
    have htake : ∀ r : Reader, r.takeLine k = r.takeLine k' := fun r => takeLine_alike halike opening
    rw [step_of_kept hl hk, step_of_kept rfl hk', htake, Option.map_map, Option.map_map]
    exact ⟨rfl, rfl⟩

/-- One line after the other: what two versions of a line leave is read alike, and so are both with what follows. -/
theorem numbers_cons_reworded {l l' : Text} {ls ls' : List Text} {b : Block}
    (h : Reworded (.ofFlag r.inComment) l l') (hn : '\n' ∉ l) (opening : SameOpenings r.inComment (l :: ls) (l' :: ls'))
    (rest : SameOpenings (r.step l).1.inComment ls ls' →
      ((r.step l).1.readFrom (n + 1) ls).2.numbers b = ((r.step l).1.readFrom (n + 1) ls').2.numbers b) :
    (r.readFrom n (l :: ls)).2.numbers b = (r.readFrom n (l' :: ls')).2.numbers b := by
  obtain ⟨here, behind⟩ := sameOpenings_cons.1 opening
  rw [← (h.uncomment hn).2, ← step_inComment] at behind
  obtain ⟨hstep, htaken⟩ := step_reworded h hn here
  rw [numbers_readFrom_cons, numbers_readFrom_cons, htaken, rest behind, hstep]

/-- Two sources that begin with a rewording and go on in the same way. -/
theorem numbers_readFrom_reworded {t t' : Text} (h : Reworded (.ofFlag r.inComment) t t')
    (harmless : ∀ u ∈ Spot.remarks (.ofFlag r.inComment) t, Harmless u) (rest : Text)
    (opening : SameOpenings r.inComment (Text.lines (t ++ rest)) (Text.lines (t' ++ rest))) (b : Block) :
    (r.readFrom n (Text.lines (t ++ rest))).2.numbers b = (r.readFrom n (Text.lines (t' ++ rest))).2.numbers b := by
  obtain ⟨ls, l, rfl, hls, hl⟩ := Text.exists_lines t
  induction ls generalizing r n t' with
  | nil =>
    -- The rewording ends on this line, and what follows on it is the same.
    obtain ⟨e, u, rfl, he, hu⟩ := Text.exists_breaksLine rest
    rw [List.flatMap_nil, List.nil_append] at h opening ⊢
    rw [← List.append_assoc, ← List.append_assoc] at opening ⊢
    have hn : '\n' ∉ l ++ e := by simp [hl, he]
    rcases (h.append e).lines_append hn hu with ⟨hnil, hnil'⟩ | ⟨x, x', us, hx, hx', hxx, hxn⟩
    · rw [hnil, hnil']
    · rw [hx, hx'] at opening ⊢
      exact numbers_cons_reworded hxx hxn opening fun _ => rfl
  | cons x ls ih =>
    rw [List.forall_mem_cons] at hls
    obtain ⟨u, hu⟩ : ∃ u, ls.flatMap (· ++ ['\n']) ++ l = u := ⟨_, rfl⟩
    have ht : (x :: ls).flatMap (· ++ ['\n']) ++ l = x ++ '\n' :: u := by simp [← hu]
    obtain ⟨x', u', rfl, hn', hx, hrest⟩ := h.exists_line ht hls.1
    have hlines : ∀ {y : Text} (v : Text), '\n' ∉ y →
        Text.lines (y ++ '\n' :: v ++ rest) = Text.dropReturn y :: Text.lines (v ++ rest) := fun v hy => by
      rw [List.append_assoc, List.cons_append, Text.lines_line hy]
    rw [ht, Spot.remarks_line hls.1] at harmless
    rw [ht, hlines u hls.1, hlines u' hn'] at opening ⊢
    have hflag := inComment_step hls.1 fun t hm => harmless t (List.mem_append_left _ hm)
    rw [hflag] at hrest harmless
    have hxn : '\n' ∉ Text.dropReturn x := fun hm => hls.1 (Text.mem_of_mem_dropReturn hm)
    refine numbers_cons_reworded hx.dropReturn hxn opening fun behind => ?_
    rw [← hu] at hrest harmless behind ⊢
    exact ih hrest (fun t hm => harmless t (List.mem_append_right _ hm)) behind hls.2

end Reader

/-! ## Strings on the line of a declaration -/

theorem CommentFree.keptCode {l : Text} (h : CommentFree l) : keptCode false l = Text.trim l := by
  rw [Sketch.keptCode, uncomment_of_not_cutCode h.block, h.kept?]
  split
  · next hempty => rw [hempty]; rfl
  · exact h.codeOf_trim

theorem CommentFree.of_stretch {l : Text} (h : Zone.Stretch (· ≠ '/') l) : CommentFree l :=
  ⟨Zone.cutCode_eq_none_of_allCode h.allCode _, Zone.cutCode_eq_none_of_allCode h.allCode _⟩

/-- What stands before the string in a declaration that is marked as old. -/
def beforeString : Text := "[[deprecated(".toList

def behindString (b : Block) : Text := ")]] ".toList ++ signatureOf b

/-- What follows the line of the declaration. -/
def opened : Text := "\x7b\n  delay(1);\n\x7d\n".toList

/-- A declaration of a block with a string in front of it. -/
def declaration (b : Block) (a : Text) : Text := beforeString ++ (literal a ++ behindString b)

/-- A source that opens the block behind such a declaration, on the next line. -/
def declared (b : Block) (a : Text) : Text := declaration b a ++ '\n' :: opened

variable {b : Block} {a a' : Text}

/-- No character with a meaning of its own stands around the string. -/
theorem not_mem_around (b : Block) {c : Char} (h : c ∈ ['"', '/', '{', '\n']) :
    c ∉ beforeString ∧ c ∉ behindString b := by
  simp only [List.mem_cons, List.not_mem_nil, or_false] at h
  rcases h with rfl | rfl | rfl | rfl <;> cases b <;> decide +kernel

theorem commentFree_declaration (b : Block) (ha : Contents a) : CommentFree (declaration b a) := by
  have plain : ∀ {t : Text}, '"' ∉ t → '/' ∉ t → Zone.Stretch (· ≠ '/') t := fun hq hs =>
    Zone.stretch_of_forall hq fun c hc h => hs (h ▸ hc)
  have quote := not_mem_around b (c := '"') (by decide)
  have slash := not_mem_around b (c := '/') (by decide)
  exact .of_stretch ((plain quote.1 slash.1).append ((ha.stretch (by decide)).append (plain quote.2 slash.2)))

theorem brace_mem_declaration : '{' ∈ declaration b a ↔ '{' ∈ a := by
  obtain ⟨before, behind⟩ := not_mem_around b (c := '{') (by decide)
  simp [declaration, literal, before, behind]

theorem lines_declared (ha : Contents a) : Text.lines (declared b a) = declaration b a :: Text.lines opened := by
  obtain ⟨before, behind⟩ := not_mem_around b (c := '\n') (by decide)
  have hn : '\n' ∉ declaration b a := by simp [declaration, before, behind, ha.newline_not_mem]
  have hr : Text.dropReturn (declaration b a) = declaration b a := by
    have hne : literal a ++ behindString b ≠ [] := List.append_ne_nil_of_left_ne_nil (solid_literal a).ne_nil _
    have hbehind : Text.dropReturn (behindString b) = behindString b := by cases b <;> decide +kernel
    unfold declaration
    rw [Text.dropReturn_append _ hne, dropReturn_literal, hbehind]
  unfold declared
  rw [Text.lines_line hn, hr]

theorem reworded_declared (b : Block) (ha : Contents a) (ha' : Contents a') :
    Reworded (.plain .code) (declared b a) (declared b a') := by
  have strings := Reworded.strings (s := .plain .code) rfl ha ha' .nil
  rw [List.append_nil, List.append_nil] at strings
  have before : (Spot.plain .code).after beforeString = .plain .code := by decide +kernel
  unfold declared declaration
  refine (Reworded.prepend ?_).append _
  rw [before]
  exact strings.append _

/-- A string in front of a declaration shows if there is an opening brace in it, and in no other way. -/
theorem sameOpenings_declared (ha : Contents a) (ha' : Contents a') (h : '{' ∈ a ↔ '{' ∈ a') :
    SameOpenings false (Text.lines (declared b a)) (Text.lines (declared b a')) := by
  have hc := commentFree_declaration b ha
  have hc' := commentFree_declaration b ha'
  have brace : Text.isBlank '{' = false := by decide
  rw [lines_declared ha, lines_declared ha', sameOpenings_cons, hc.keptCode, hc'.keptCode,
    uncomment_of_not_cutCode hc.block, uncomment_of_not_cutCode hc'.block]
  refine ⟨fun _ => ?_, SameOpenings.refl _ _⟩
  rw [mem_trim brace, mem_trim brace, brace_mem_declaration, brace_mem_declaration]
  exact h

/-- With an opening brace in the string the block counts as opened and closed on the line of its declaration. -/
theorem numbers_declared (b : Block) (ha : Contents a) :
    (Program.ofSource (declared b a)).numbers b = if '{' ∈ a then [] else [3] := by
  have same : ∀ {k : Text}, Contents k → (∀ u ∈ Spot.remarks (.plain .code) (declared b k), Harmless u) →
      ('{' ∈ k ↔ '{' ∈ a) →
        (Program.ofSource (declared b k)).numbers b = (Program.ofSource (declared b a)).numbers b := by
    intro k hk harmless h
    have opening := sameOpenings_declared (b := b) hk ha h
    have := Reader.numbers_readFrom_reworded (r := {}) (n := 1) (reworded_declared b hk ha) harmless []
    rw [List.append_nil, List.append_nil] at this
    exact this opening b
  by_cases h : '{' ∈ a
  · have brace : Contents ['{'] := contents_of_not_mem (by decide) (by decide) (by decide)
    rw [if_pos h, ← same brace (by cases b <;> decide +kernel) (by simp [h])]
    cases b <;> decide +kernel
  · have empty : Contents [] := contents_of_not_mem (by simp) (by simp) (by simp)
    rw [if_neg h, ← same empty (by cases b <;> decide +kernel) (by simp [h])]
    cases b <;> decide +kernel

/-- Strings do not say which lines a block takes, where line comments are harmless and no declaration of a block has an
opening brace in the code of just one version. There a string does say it: of any two of which one has an opening brace,
in front of a declaration whose own brace is on the next line, that one leaves the block empty. -/
theorem numbers_eq_of_reworded (b : Block) :
    (∀ t t' rest, Reworded (.plain .code) t t' → (∀ u ∈ Spot.remarks (.plain .code) t, Harmless u) →
      SameOpenings false (Text.lines (t ++ rest)) (Text.lines (t' ++ rest)) →
        (Program.ofSource (t ++ rest)).numbers b = (Program.ofSource (t' ++ rest)).numbers b) ∧
    ∀ a a', Contents a → Contents a' → ¬('{' ∈ a ↔ '{' ∈ a') →
      Reworded (.plain .code) (declared b a) (declared b a') ∧
        (Program.ofSource (declared b a)).numbers b ≠ (Program.ofSource (declared b a')).numbers b := by
  constructor
  · intro t t' rest h harmless opening
    exact Reader.numbers_readFrom_reworded (r := {}) (n := 1) h harmless rest opening b
  · intro a a' ha ha' h
    refine ⟨reworded_declared b ha ha', ?_⟩
    rw [numbers_declared b ha, numbers_declared b ha']
    by_cases hm : '{' ∈ a
    · have hm' : '{' ∉ a' := fun hm' => h (iff_of_true hm hm')
      simp [hm, hm']
    · have hm' : '{' ∈ a' := not_not.1 fun hm' => h (iff_of_false hm hm')
      simp [hm, hm']

/-- A sketch that prints a text. -/
def printing (a : Text) : Text :=
  "void setup() \x7b\n  Serial.println(".toList ++ (literal a ++ "); // note\n  delay(5);\n\x7d\n".toList)

/-- What is printed may look like the end of the block, a comment and a declaration, but a brace in a string in front of
`void setup()` counts. -/
theorem numbers_eq_of_reworded_blink :
    (Program.ofSource (printing "on".toList)).numbers .setup = [2, 3] ∧
      (Program.ofSource (printing "\x7d /* void loop() \x7b".toList)).numbers .setup = [2, 3] ∧
      (Program.ofSource (declared .setup "use \x7b\x7d".toList)).numbers .setup ≠
        (Program.ofSource (declared .setup "use begin".toList)).numbers .setup := by
  have on : Contents "on".toList := contents_of_not_mem (by decide) (by decide) (by decide)
  have long : Contents "\x7d /* void loop() \x7b".toList := contents_of_not_mem (by decide) (by decide) (by decide)
  have code : (Spot.plain .code).after "void setup() \x7b\n  Serial.println(".toList = .plain .code := by decide +kernel
  have reworded : Reworded (.plain .code) (printing "on".toList) (printing "\x7d /* void loop() \x7b".toList) := by
    refine .prepend ?_
    rw [code]
    exact .strings rfl on long (.refl _ _)
  have same := (numbers_eq_of_reworded .setup).1 _ _ [] reworded (by decide +kernel) (by decide +kernel)
  rw [List.append_nil, List.append_nil] at same
  have numbers : (Program.ofSource (printing "on".toList)).numbers .setup = [2, 3] := by decide +kernel
  refine ⟨numbers, same.symm.trans numbers, ?_⟩
  have brace : Contents "use \x7b\x7d".toList := contents_of_not_mem (by decide) (by decide) (by decide)
  have plain : Contents "use begin".toList := contents_of_not_mem (by decide) (by decide) (by decide)
  exact ((numbers_eq_of_reworded .setup).2 _ _ brace plain (by decide)).2

/-- A brace in a string on the line of a declaration closes the block there and then. -/
theorem string_brace_closes_block :
    ¬ ∀ t t', Reworded (.plain .code) t t' →
      ∀ b, (Program.ofSource t).numbers b = (Program.ofSource t').numbers b := by
  intro h
  have braces : Contents ['{', '}'] := contents_of_not_mem (by decide) (by decide) (by decide)
  have plain : Contents ['x'] := contents_of_not_mem (by decide) (by decide) (by decide)
  have same := h _ _ (reworded_declared .setup braces plain) .setup
  rw [numbers_declared .setup braces, numbers_declared .setup plain] at same
  simp at same

end Sketch

end Breadboard
