/-
  Breadboard.Proofs.Sketch.BlockComment — when the body of a block comment leaves no trace.

  The reader's scan for block comments does not know line comments. `Spot.scan` says where it stands
  in a source: as the usual rules have it (`Spot.after`), but two slashes in code are code. So a
  slash and a star in a line comment open a block comment for the scan, and it may stand in a
  comment or a string where the rules stand in code.

  Proved: what stands in a block comment can be exchanged for any text with as many line feeds if
  and only if the scan stands in code before the comment; where the line comments before it are
  harmless, it does where the rules do (`comment_inert_iff`). Behind a line comment that opens a
  block comment, the body of the next one may be read as code (`comment_body_read_as_code`).
-/

import Mathlib
import Breadboard.Proofs.Sketch.LineComment

namespace Breadboard

theorem Program.append_cancel {p q q' : Program} (h : p.append q = p.append q') : q = q' := by
  refine Program.ext_block fun b => ?_
  have := congrArg (·.block b) h
  simp only [block_append] at this
  exact List.append_cancel_left this

namespace Sketch

/-! ## Where the scan stands -/

namespace Spot

/-- One more character of the scan, which passes over two slashes as over code. -/
def scanNext (s : Spot) (c : Char) : Spot := if s = slash ∧ c = '/' then slash else s.next c

/-- Where the scan stands after a text. -/
def scan (s : Spot) (t : Text) : Spot := t.foldl scanNext s

@[simp] theorem scan_cons (s : Spot) (c : Char) (t : Text) : s.scan (c :: t) = (s.scanNext c).scan t := rfl

theorem scan_append (s : Spot) (t u : Text) : s.scan (t ++ u) = (s.scan t).scan u := List.foldl_append

theorem ofFlag_ne_remark (flag : Bool) : ofFlag flag ≠ remark := by cases flag <;> simp [ofFlag]

theorem scanNext_eq {s : Spot} {c : Char} (h : ¬ (s = slash ∧ c = '/')) : s.scanNext c = s.next c := if_neg h

theorem scanNext_ne_remark {s : Spot} (hs : s ≠ remark) (c : Char) : s.scanNext c ≠ remark := by
  by_cases hc : s = slash ∧ c = '/'
  · rw [scanNext, if_pos hc]
    simp
  · rw [scanNext_eq hc]
    exact fun hr => hc (next_eq_remark hs hr)

theorem keeps_scanNext {s : Spot} {c : Char} (hs : s ≠ remark) (hn : c ≠ '\n') :
    ∃ k, Keeps s (s.scanNext c) [c] k := by
  by_cases hc : s = slash ∧ c = '/'
  · obtain ⟨rfl, rfl⟩ := hc
    exact ⟨['/'], fun u => Place.pass_outside (by simp), rfl⟩
  · rw [scanNext_eq hc]
    exact pass_next hs hn fun hr => hc (next_eq_remark hs hr)

/-- A stretch of a line, line comments or not. -/
theorem keeps_scan {s : Spot} {t : Text} (hs : s ≠ remark) (hn : '\n' ∉ t) :
    s.scan t ≠ remark ∧ ∃ k, Keeps s (s.scan t) t k := by
  induction t generalizing s with
  | nil => exact ⟨hs, [], Keeps.refl s⟩
  | cons c t ih =>
    rw [List.mem_cons, not_or] at hn
    obtain ⟨k, hk⟩ := keeps_scanNext hs (Ne.symm hn.1)
    obtain ⟨ht, k', hk'⟩ := ih (scanNext_ne_remark hs c) hn.2
    exact ⟨ht, k ++ k', hk.trans hk'⟩

/-- On a line the scan stands where the rules do, unless that is in a line comment. -/
theorem scan_eq_after {s : Spot} {t : Text} (hs : s ≠ remark) (hn : '\n' ∉ t) (h : s.after t ≠ remark) :
    s.scan t = s.after t := by
  induction t generalizing s with
  | nil => rfl
  | cons c t ih =>
    rw [List.mem_cons, not_or] at hn
    have hc : s.next c ≠ remark := by
      intro hc
      rw [after_cons, hc, after_remark hn.2] at h
      exact h rfl
    have hcs : ¬ (s = slash ∧ c = '/') := by
      rintro ⟨rfl, rfl⟩
      exact hc rfl
    rw [scan_cons, scanNext_eq hcs, after_cons]
    exact ih hc hn.2 h

theorem scanNext_newline (s : Spot) : s.scanNext '\n' = ofFlag s.inBlock := by
  rw [scanNext_eq (by simp), next_newline]

theorem inBlock_scan_dropReturn (s : Spot) (l : Text) : (s.scan (Text.dropReturn l)).inBlock = (s.scan l).inBlock := by
  rcases Text.dropReturn_cases l with h | ⟨t, rfl, h⟩
  · rw [h]
  · have hr : (s.scan (t ++ ['\r'])) = (s.scan t).next '\r' := by
      rw [scan_append]
      exact scanNext_eq (by simp)
    rw [h, hr, inBlock_next_return]

end Spot

/-- After a line the reader knows whether the scan stands in a block comment. -/
theorem Reader.inComment_scan (r : Reader) {l : Text} (hn : '\n' ∉ l) :
    ((Spot.ofFlag r.inComment).scan l).inBlock = (r.step (Text.dropReturn l)).1.inComment := by
  have hnd : '\n' ∉ Text.dropReturn l := fun h => hn (Text.mem_of_mem_dropReturn h)
  obtain ⟨-, k, hk⟩ := Spot.keeps_scan (Spot.ofFlag_ne_remark r.inComment) hnd
  have hu := hk.uncomment []
  rw [List.append_nil, List.append_nil] at hu
  rw [Reader.step_inComment, hu, Spot.isComment_place, Spot.inBlock_scan_dropReturn]

theorem Reader.scan_completed (r : Reader) (n : Nat) {ls : List Text} (hn : ∀ l ∈ ls, '\n' ∉ l) :
    (Spot.ofFlag r.inComment).scan (ls.flatMap (· ++ ['\n'])) =
      Spot.ofFlag (r.readFrom n (ls.map Text.dropReturn)).1.inComment := by
  induction ls generalizing r n with
  | nil => rfl
  | cons l ls ih =>
    rw [List.forall_mem_cons] at hn
    rw [List.flatMap_cons, List.append_assoc, Spot.scan_append, List.singleton_append, Spot.scan_cons,
      Spot.scanNext_newline, r.inComment_scan hn.1, List.map_cons, Reader.readFrom_cons]
    exact ih _ _ hn.2

/-- A text in front of another one: complete lines that the reader has read, and the beginning of the line on which the
other one begins. -/
theorem exists_reader (before : Text) :
    ∃ (r : Reader) (n : Nat) (p : Program) (l : Text), '\n' ∉ l ∧
      (Spot.plain .code).scan before = (Spot.ofFlag r.inComment).scan l ∧
      ∀ t, Program.ofSource (before ++ t) = p.append (r.readFrom n (Text.lines (l ++ t))).2 := by
  obtain ⟨ls, l, rfl, hls, hl⟩ := Text.exists_lines before
  refine ⟨(({} : Reader).readFrom 1 (ls.map Text.dropReturn)).1, 1 + (ls.map Text.dropReturn).length,
    (({} : Reader).readFrom 1 (ls.map Text.dropReturn)).2, l, hl, ?_, fun t => ?_⟩
  · rw [Spot.scan_append, ← Reader.scan_completed {} 1 hls]
    rfl
  · rw [Program.ofSource, Reader.read, List.append_assoc, Text.lines_completed hls, Reader.readFrom_append]

/-- Behind harmless line comments the scan stands in code where the rules do. -/
theorem scan_inCode {before : Text} (hb : ((Spot.plain .code).after before).InCode)
    (hc : ∀ u ∈ Spot.remarks (.plain .code) before, Harmless u) : ((Spot.plain .code).scan before).InCode := by
  obtain ⟨ls, l, rfl, hls, hl⟩ := Text.exists_lines before
  rw [Spot.remarks_completed hls] at hc
  have hspot := Reader.inComment_readFrom (r := {}) (n := 1) hls fun t ht => hc t (List.mem_append_left _ ht)
  have hscan := Reader.scan_completed {} 1 hls
  have hsame : (Spot.plain .code).scan (ls.flatMap (· ++ ['\n'])) = (Spot.plain .code).after (ls.flatMap (· ++ ['\n'])) :=
    hscan.trans hspot.symm
  rw [Spot.after_append] at hb
  rw [Spot.scan_append, hsame, Spot.scan_eq_after _ hl]
  · exact hb
  · intro he
    rw [he] at hb
    exact hb
  · exact fun he => Spot.ofFlag_ne_remark _ (hspot.symm.trans he)

/-! ## In a block comment -/

theorem cut_closeMark {c : Text} (h : ¬ closeMark <:+: c) (u : Text) :
    Text.cut closeMark (c ++ (closeMark ++ u)) = some (c, u) := by
  induction c with
  | nil => rfl
  | cons d c ih =>
    have hc : ¬ closeMark <:+: c := fun hc => h (hc.trans (List.suffix_cons d c).isInfix)
    -- the star in front of the slash would have to be the last character of the body
    have hd : ¬ (d = '*' ∧ (c ++ (closeMark ++ u)).head? = some '/') := by
      rintro ⟨rfl, hs⟩
      cases c with
      | nil => simp [closeMark] at hs
      | cons e c =>
        obtain rfl : e = '/' := Option.some.inj hs
        exact h ⟨[], c, rfl⟩
    rw [List.cons_append, Text.cut, dropPrefix?_closeMark, if_neg hd, ih hc]
    rfl

theorem uncomment_closeMark {c : Text} (h : ¬ closeMark <:+: c) (u : Text) :
    uncomment true (c ++ (closeMark ++ u)) = uncomment false u := uncomment_of_cut (cut_closeMark h u)

theorem uncomment_body {c : Text} (h : ¬ closeMark <:+: c) : uncomment true c = ([], true) := by
  refine uncomment_of_not_cut ?_
  rcases hc : Text.cut closeMark c with _ | ⟨before, rest⟩
  · rfl
  · exact absurd ⟨before, rest, (Text.cut_append hc).symm⟩ h

/-- Where the scan stands in code, the mark of a block comment opens one. -/
theorem uncomment_openMark {flag : Bool} {l : Text} (hn : '\n' ∉ l) (h : ((Spot.ofFlag flag).scan l).InCode) :
    ∃ k, ∀ u, uncomment flag (l ++ (openMark ++ u)) = (k ++ (uncomment true u).1, (uncomment true u).2) := by
  obtain ⟨-, k, hk⟩ := Spot.keeps_scan (Spot.ofFlag_ne_remark flag) hn
  have opened : ∀ u, Place.pass (.outside .code) (openMark ++ u) = Place.pass .comment u := fun _ => rfl
  rcases h.cases with hs | hs
  · rw [hs] at hk
    refine ⟨k, fun u => ?_⟩
    rw [hk.uncomment, uncomment_eq_pass]
    simp only [Spot.place, Spot.pending, List.nil_append, opened, Place.ofFlag, if_true]
  · rw [hs] at hk
    refine ⟨k ++ ['/'], fun u => ?_⟩
    have slash : Place.pass (.outside .code) ('/' :: (openMark ++ u)) = _ := Place.pass_outside (by simp [openMark])
    rw [show Zone.code.next '/' = .code from rfl, opened] at slash
    rw [hk.uncomment, uncomment_eq_pass]
    simp only [Spot.place, Spot.pending, List.cons_append, List.nil_append, slash, Place.ofFlag, if_true,
      List.append_assoc]

namespace Reader

theorem step_congr {r : Reader} {raw raw' : Text} (h : uncomment r.inComment raw = uncomment r.inComment raw') :
    r.step raw = r.step raw' := by
  unfold step
  rw [h]

variable {r : Reader} {c : Text}

theorem readFrom_body (inside : r.inComment = true) (n : Nat) {ls : List Text} (h : ∀ l ∈ ls, ¬ closeMark <:+: l) :
    r.readFrom n ls = (r, {}) := by
  induction ls generalizing n with
  | nil => rfl
  | cons l ls ih =>
    rw [List.forall_mem_cons] at h
    have hu : uncomment r.inComment l = ([], true) := by
      rw [inside]
      exact uncomment_body h.1
    have hstep : r.step l = (r, none) := by
      rw [step_of_dropped hu rfl, ← inside]
    rw [readFrom_cons, hstep]
    exact ih _ h.2

end Reader

/-- On the line on which a comment ends the rest of the source begins. -/
theorem lines_closeMark (rest : Text) :
    ∃ v ls, ∀ w, '\n' ∉ w → Text.lines (w ++ (closeMark ++ rest)) = (w ++ (closeMark ++ v)) :: ls := by
  obtain ⟨e, r, rfl, he, hr⟩ := Text.exists_breaksLine rest
  have hn : ∀ w, '\n' ∉ w → '\n' ∉ w ++ (closeMark ++ e) := fun w hw => by simp [hw, he, closeMark]
  rcases hr with rfl | ⟨u, rfl⟩
  · refine ⟨e, [], fun w hw => ?_⟩
    rw [List.append_nil]
    exact Text.lines_last (hn w hw) (by simp [closeMark])
  · refine ⟨Text.dropReturn e, Text.lines u, fun w hw => ?_⟩
    rw [← Text.dropReturn_behind w (by decide) rfl e, ← Text.lines_line (hn w hw)]
    simp only [List.append_assoc]

namespace Reader

variable {r : Reader} {c c' : Text}

/-- In a comment the reader goes on to its end. -/
theorem readFrom_closeMark (inside : r.inComment = true) (n : Nat) (h : ¬ closeMark <:+: c) (rest : Text) :
    r.readFrom n (Text.lines (c ++ (closeMark ++ rest))) =
      r.readFrom (n + c.count '\n') (Text.lines (closeMark ++ rest)) := by
  obtain ⟨ls, l, rfl, hls, hl⟩ := Text.exists_lines c
  obtain ⟨v, post, hpost⟩ := lines_closeMark rest
  have hbody : ∀ x ∈ ls.map Text.dropReturn, ¬ closeMark <:+: x := by
    intro x hx hm
    refine h (hm.trans (Text.infix_of_mem_lines ?_))
    rw [Text.lines_completed hls]
    exact List.mem_append_left _ hx
  have hlast : ¬ closeMark <:+: l := fun hm => h (hm.trans (List.suffix_append _ l).isInfix)
  have hstep : r.step (l ++ (closeMark ++ v)) = r.step ([] ++ (closeMark ++ v)) := by
    refine step_congr ?_
    rw [inside, uncomment_closeMark hlast, uncomment_closeMark (by decide)]
  have hcount : (ls.flatMap (· ++ ['\n']) ++ l).count '\n' = (ls.map Text.dropReturn).length := by
    rw [List.count_append, Text.count_completed hls, List.count_eq_zero.2 hl, List.length_map]
    rfl
  have hfirst : Text.lines (closeMark ++ rest) = ([] ++ (closeMark ++ v)) :: post := hpost [] List.not_mem_nil
  rw [List.append_assoc, Text.lines_completed hls, readFrom_append, readFrom_body inside n hbody, hpost l hl, hcount,
    hfirst, readFrom_cons _ _ (l ++ _), hstep, ← readFrom_cons]
  rfl

section

variable {l x z : Text} (hn : '\n' ∉ l) (code : ((Spot.ofFlag r.inComment).scan l).InCode)

include hn code

/-- The line on which a comment begins and goes on: nothing of the comment shows, and the reader is in it. -/
theorem step_openMark (h : ¬ closeMark <:+: x) :
    r.step (l ++ (openMark ++ x)) = r.step (l ++ openMark) ∧ (r.step (l ++ openMark)).1.inComment = true := by
  obtain ⟨k, hk⟩ := uncomment_openMark hn code
  have opened := hk x
  have bare := hk []
  rw [uncomment_body h] at opened
  rw [uncomment_body (by decide), List.append_nil] at bare
  exact ⟨step_congr (opened.trans bare.symm), by rw [step_inComment, bare]⟩

/-- A comment that ends on the line on which it begins. -/
theorem readFrom_one_line (hx : '\n' ∉ x) (h : ¬ closeMark <:+: x) (n : Nat) (rest : Text) :
    r.readFrom n (Text.lines (l ++ (openMark ++ (x ++ (closeMark ++ rest))))) =
      r.readFrom n (Text.lines (l ++ (openMark ++ (closeMark ++ rest)))) := by
  obtain ⟨k, hk⟩ := uncomment_openMark hn code
  obtain ⟨v, post, hpost⟩ := lines_closeMark rest
  have hline := hpost (l ++ (openMark ++ x)) (by simp [hn, hx, openMark])
  have hbare := hpost (l ++ openMark) (by simp [hn, openMark])
  simp only [List.append_assoc] at hline hbare
  have hstep : r.step (l ++ (openMark ++ (x ++ (closeMark ++ v)))) = r.step (l ++ (openMark ++ (closeMark ++ v))) := by
    refine step_congr ?_
    have closed := uncomment_closeMark (c := []) (by decide) v
    rw [List.nil_append] at closed
    rw [hk, hk, uncomment_closeMark h, closed]
  rw [hline, hbare, readFrom_cons, readFrom_cons, hstep]

/-- A comment that goes on in the lines below. -/
theorem readFrom_more_lines (hx : '\n' ∉ x) (h : ¬ closeMark <:+: x) (n : Nat) (rest : Text) :
    r.readFrom n (Text.lines (l ++ (openMark ++ (x ++ '\n' :: (z ++ (closeMark ++ rest)))))) =
      r.readFrom n ((l ++ openMark) :: Text.lines (z ++ (closeMark ++ rest))) := by
  have hlx : '\n' ∉ l ++ (openMark ++ x) := by simp [hn, hx, openMark]
  have hline := Text.lines_line hlx (z ++ (closeMark ++ rest))
  rw [Text.dropReturn_behind l (by decide) rfl x] at hline
  simp only [List.append_assoc] at hline
  have hreturn : ¬ closeMark <:+: Text.dropReturn x := by
    rcases Text.dropReturn_cases x with hd | ⟨s, rfl, hd⟩
    · rwa [hd]
    · rw [hd]
      exact fun hm => h (hm.trans (List.prefix_append s _).isInfix)
  rw [hline, readFrom_cons, readFrom_cons, (step_openMark hn code hreturn).1]

/-- A comment that begins where the scan stands in code is read like any other one with as many line feeds. -/
theorem readFrom_comment (h : ¬ closeMark <:+: c) (h' : ¬ closeMark <:+: c') (same : c.count '\n' = c'.count '\n')
    (n : Nat) (rest : Text) :
    r.readFrom n (Text.lines (l ++ (openMark ++ (c ++ (closeMark ++ rest))))) =
      r.readFrom n (Text.lines (l ++ (openMark ++ (c' ++ (closeMark ++ rest))))) := by
  obtain ⟨x, y, rfl, hx, hy⟩ := Text.exists_breaksLine c
  obtain ⟨x', y', rfl, hx', hy'⟩ := Text.exists_breaksLine c'
  have hbody : ¬ closeMark <:+: x := fun hm => h (hm.trans (List.prefix_append x y).isInfix)
  have hbody' : ¬ closeMark <:+: x' := fun hm => h' (hm.trans (List.prefix_append x' y').isInfix)
  have htail : ¬ closeMark <:+: y := fun hm => h (hm.trans (List.suffix_append x y).isInfix)
  have htail' : ¬ closeMark <:+: y' := fun hm => h' (hm.trans (List.suffix_append x' y').isInfix)
  rw [List.count_append, List.count_append, List.count_eq_zero.2 hx, List.count_eq_zero.2 hx'] at same
  rcases hy with rfl | ⟨z, rfl⟩ <;> rcases hy' with rfl | ⟨z', rfl⟩
  · rw [List.append_nil, List.append_nil, readFrom_one_line hn code hx hbody, readFrom_one_line hn code hx' hbody']
  · simp at same
  · simp at same
  · have inside := (step_openMark hn code hbody).2
    have hz : z.count '\n' = z'.count '\n' := by simpa using same
    have hclose : ¬ closeMark <:+: z := fun hm => htail (hm.trans (List.suffix_cons '\n' z).isInfix)
    have hclose' : ¬ closeMark <:+: z' := fun hm => htail' (hm.trans (List.suffix_cons '\n' z').isInfix)
    rw [List.append_assoc, List.append_assoc, List.cons_append, List.cons_append,
      readFrom_more_lines hn code hx hbody, readFrom_more_lines hn code hx' hbody', readFrom_cons, readFrom_cons,
      readFrom_closeMark inside _ hclose, readFrom_closeMark inside _ hclose', hz]

end

end Reader

/-! ## Where the scan does not stand in code -/

/-- The body of a comment that makes a block of its own if it is read as code. -/
def revealing : Text := '/' :: '\n' :: (opening .loop ++ '\n' :: (probe ++ ['\n']))

theorem lines_revealing {l : Text} (hn : '\n' ∉ l) :
    Text.lines (l ++ (openMark ++ (revealing ++ closeMark))) =
      [l ++ (openMark ++ ['/']), opening .loop, probe, closeMark] := by
  have first : '\n' ∉ l ++ (openMark ++ ['/']) := by simp [hn, openMark]
  have hd := Text.dropReturn_behind l (by decide : openMark ≠ []) rfl ['/']
  have hs : l ++ (openMark ++ (revealing ++ closeMark)) =
      (l ++ (openMark ++ ['/'])) ++ '\n' :: (opening .loop ++ '\n' :: (probe ++ '\n' :: closeMark)) := by
    simp [revealing]
  rw [hs, Text.lines_line first, hd, Text.lines_line (by decide), Text.lines_line (by decide),
    Text.lines_last (by decide) (by decide)]
  rfl

theorem lines_blank {l : Text} (hn : '\n' ∉ l) :
    Text.lines (l ++ (openMark ++ ("\n\n\n".toList ++ closeMark))) = [l ++ openMark, [], [], closeMark] := by
  have first : '\n' ∉ l ++ openMark := by simp [hn, openMark]
  have hs : l ++ (openMark ++ ("\n\n\n".toList ++ closeMark)) =
      (l ++ openMark) ++ '\n' :: ([] ++ '\n' :: ([] ++ '\n' :: closeMark)) := by simp
  rw [hs, Text.lines_line first, Text.dropReturn_append l (by decide), Text.lines_line (by simp),
    Text.lines_line (by simp), Text.lines_last (by decide) (by decide)]
  rfl

/-- A slash behind the mark: in a string it is no mark, and in a comment it ends that comment. -/
theorem uncomment_of_not_inCode {flag : Bool} {l : Text} (hn : '\n' ∉ l) (h : ¬ ((Spot.ofFlag flag).scan l).InCode) :
    (uncomment flag (l ++ (openMark ++ ['/']))).2 = false := by
  obtain ⟨hr, k, hk⟩ := Spot.keeps_scan (Spot.ofFlag_ne_remark flag) hn
  rw [hk.uncomment]
  rcases hs : (Spot.ofFlag flag).scan l with (_ | _ | _) | _ | _ | _ | _
  · exact absurd (hs ▸ rfl) h
  · rfl
  · rfl
  · exact absurd (hs ▸ trivial) h
  · rfl
  · rfl
  · exact absurd hs hr

theorem inCode_of_exchange {r : Reader} {n : Nat} {l : Text} (hn : '\n' ∉ l)
    (h : (r.readFrom n [l ++ (openMark ++ ['/']), opening .loop, probe, closeMark]).2 =
      (r.readFrom n [l ++ openMark, [], [], closeMark]).2) :
    ((Spot.ofFlag r.inComment).scan l).InCode := by
  by_contra hcode
  have shown : (r.step (l ++ (openMark ++ ['/']))).1.inComment = false := by
    rw [Reader.step_inComment, uncomment_of_not_inCode hn hcode]
  have opened : (r.readFrom n [l ++ (openMark ++ ['/']), opening .loop]).1 = .opened .loop := by
    rw [Reader.readFrom_cons, Reader.readFrom_cons, step_opening_of_code .loop shown]
    rfl
  have taken : ((Reader.opened .loop).step probe).2 = some (.loop, probe) := by decide +kernel
  -- the probe is a node of the first program, and the line with its number is empty in the second one
  have first : ⟨Statement.ofLine probe, probe, n + 2⟩ ∈
      (r.readFrom n [l ++ (openMark ++ ['/']), opening .loop, probe, closeMark]).2.block .loop :=
    Reader.mem_readFrom.2 ⟨2, probe, probe, rfl, opened.symm ▸ taken, rfl⟩
  rw [h] at first
  obtain ⟨k, x, text, hx, hstep, hnode⟩ := Reader.mem_readFrom.1 first
  obtain rfl : 2 = k := Nat.add_left_cancel (congrArg Node.line hnode)
  obtain rfl : [] = x := Option.some.inj hx
  have kept := (Reader.step_snd.1 hstep).1
  rw [uncomment_eq_pass, Place.pass_nil] at kept
  cases kept

/-- The body of a block comment can be exchanged for any other one with as many line feeds, whatever follows the comment,
if and only if the scan stands in code before it. Where the text before it ends outside strings and comments and has only
harmless line comments, it does. -/
theorem comment_inert_iff (before : Text) :
    (((Spot.plain .code).scan before).InCode ↔
      ∀ c c' rest, ¬ closeMark <:+: c → ¬ closeMark <:+: c' → c.count '\n' = c'.count '\n' →
        Program.ofSource (before ++ openMark ++ c ++ closeMark ++ rest) =
          Program.ofSource (before ++ openMark ++ c' ++ closeMark ++ rest)) ∧
      (((Spot.plain .code).after before).InCode → (∀ u ∈ Spot.remarks (.plain .code) before, Harmless u) →
        ((Spot.plain .code).scan before).InCode) := by
  refine ⟨?_, scan_inCode⟩
  obtain ⟨r, n, p, l, hn, hscan, hread⟩ := exists_reader before
  simp only [List.append_assoc, hread, hscan]
  constructor
  · intro code c c' rest h h' same
    rw [Reader.readFrom_comment hn code h h' same]
  · intro inert
    have h := Program.append_cancel (inert revealing "\n\n\n".toList [] (by decide) (by decide) (by decide))
    rw [List.append_nil, lines_revealing hn, lines_blank hn] at h
    exact inCode_of_exchange hn h

/-- A comment over two lines, in which a string begins and a line comment stands, behind a line comment. -/
theorem comment_inert_iff_blink :
    let before := "void loop() \x7b // led\n delay(5); ".toList
    let c := " \"on\n // \x7b /* ".toList
    let c' := "*\n".toList
    let rest := " delay(500);\n\x7d\n".toList
    ((Spot.plain .code).after before).InCode ∧ (∀ u ∈ Spot.remarks (.plain .code) before, Harmless u) ∧
      ¬ closeMark <:+: c ∧ ¬ closeMark <:+: c' ∧ c.count '\n' = c'.count '\n' ∧
      Program.ofSource (before ++ openMark ++ c ++ closeMark ++ rest) =
        Program.ofSource (before ++ openMark ++ c' ++ closeMark ++ rest) ∧
      (Program.ofSource (before ++ openMark ++ c ++ closeMark ++ rest)).loop.map (·.line) = [2, 3] := by
  intro before c c' rest
  have code : ((Spot.plain .code).after before).InCode := rfl
  have harmless : ∀ u ∈ Spot.remarks (.plain .code) before, Harmless u := by
    have remarks : Spot.remarks (.plain .code) before = [" led".toList] := by decide
    rw [remarks, List.forall_mem_singleton]
    exact harmless_of_no_opener (by decide)
  have scanned := (comment_inert_iff before).2 code harmless
  have inert := (comment_inert_iff before).1.1 scanned
  have none : ¬ closeMark <:+: c := by decide
  have none' : ¬ closeMark <:+: c' := by decide
  exact ⟨code, harmless, none, none', by decide, inert c c' rest none none' (by decide), by decide +kernel⟩

/-- Behind a line comment with the mark of a block comment in it, a body that begins with a slash ends the comment that
is open for the scan, and the lines below are read as code. -/
theorem comment_body_read_as_code :
    ¬ ∀ before c c' rest, ((Spot.plain .code).after before).InCode → ¬ closeMark <:+: c → ¬ closeMark <:+: c' →
      c.count '\n' = c'.count '\n' →
      Program.ofSource (before ++ openMark ++ c ++ closeMark ++ rest) =
        Program.ofSource (before ++ openMark ++ c' ++ closeMark ++ rest) := by
  intro anyBodyInert
  have := anyBodyInert "void loop() \x7b\n// /*\n".toList "/\ndelay(1);\n".toList "\n\n".toList "\n\x7d\n".toList rfl
    (by decide) (by decide) (by decide)
  revert this
  decide +kernel

end Sketch

end Breadboard
