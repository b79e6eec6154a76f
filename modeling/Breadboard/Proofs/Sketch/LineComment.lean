/-
  Breadboard.Proofs.Sketch.LineComment — which line comments leave no trace in the program.

  The reader takes block comments out of a line before it looks for two slashes. So a slash
  and a star inside a line comment open a block comment, and one right behind the two
  slashes takes the second of them away.

  Proved: a harmless comment text can be exchanged for any other, with at most the stored text
  of its own line to show for it, and no other comment text can (`harmless_iff_inert`). A
  text in which no slash or star comes behind a slash is harmless
  (`harmless_of_no_opener`).
-/

import Mathlib
import Breadboard.Proofs.Sketch.Quoting
import Breadboard.Proofs.Sketch.Spot

namespace Breadboard

/-! ## Programs up to the text of a line -/

def Node.forgetText (n : Nat) (x : Node) : Node := if x.line = n then { x with text := [] } else x

/-- The program without the stored text of the nodes of one line. -/
def Program.forgetText (n : Nat) (p : Program) : Program :=
  ⟨p.setup.map (·.forgetText n), p.loop.map (·.forgetText n)⟩

theorem Program.forgetText_append (n : Nat) (p q : Program) :
    (p.append q).forgetText n = (p.forgetText n).append (q.forgetText n) := by
  simp [append, forgetText]

theorem Program.forgetText_cons (n : Nat) (b : Block) (x : Node) (p : Program) :
    (p.cons b x).forgetText n = (p.forgetText n).cons b (x.forgetText n) := by
  cases b <;> rfl

theorem Program.lines_forgetText (n : Nat) (p : Program) (b : Block) :
    ((p.forgetText n).block b).map Node.line = (p.block b).map Node.line := by
  have hx : ∀ x : Node, (x.forgetText n).line = x.line := fun x => by unfold Node.forgetText; split <;> rfl
  cases b <;> simp [forgetText, block, hx]

namespace Sketch

/-! ## A line with a comment -/

theorem head?_lineMark (k u : Text) : (k ++ (lineMark ++ u)).head? = (k ++ lineMark).head? := by cases k <;> rfl

theorem isSome_lineMark (k u : Text) :
    (Text.dropPrefix? lineMark (k ++ (lineMark ++ u))).isSome = (Text.dropPrefix? lineMark (k ++ lineMark)).isSome := by
  cases k with
  | nil => rfl
  | cons c k =>
    rw [List.cons_append, List.cons_append, dropPrefix?_lineMark, dropPrefix?_lineMark, head?_lineMark]
    split <;> rfl

/-- Behind code that ends outside strings the code before the first two slashes is fixed. -/
theorem cutCode_lineMark {z : Zone} {k : Text} (h : z.after k = .code) :
    ∃ code, ∀ u, ∃ rest, Zone.cutCode lineMark z (k ++ (lineMark ++ u)) = some (code, rest) := by
  induction k generalizing z with
  | nil =>
    obtain rfl : z = .code := h
    exact ⟨[], fun u => ⟨u, rfl⟩⟩
  | cons c k ih =>
    by_cases hm : z = .code ∧ c = '/' ∧ (k ++ lineMark).head? = some '/'
    · refine ⟨[], fun u => ⟨(k ++ (lineMark ++ u)).tail, ?_⟩⟩
      rw [List.cons_append, Zone.cutCode, dropPrefix?_lineMark, head?_lineMark, ← ite_and, if_pos hm]
    · obtain ⟨code, hc⟩ := ih (z := z.next c) h
      refine ⟨c :: code, fun u => ?_⟩
      obtain ⟨rest, hr⟩ := hc u
      refine ⟨rest, ?_⟩
      rw [List.cons_append, Zone.cutCode, dropPrefix?_lineMark, head?_lineMark, ← ite_and, if_neg hm]
      simp only [hr, Option.map_some]

theorem solid_lineMark : Text.Solid lineMark := ⟨⟨'/', ['/'], rfl, by decide⟩, ⟨['/'], '/', rfl, by decide⟩⟩

theorem after_trimStart {k : Text} : Zone.code.after (Text.trimStart k) = Zone.code.after k := by
  induction k with
  | nil => rfl
  | cons c k ih =>
    unfold Text.trimStart at ih ⊢
    rw [List.dropWhile_cons]
    split
    · next h =>
      rw [ih, Zone.after, Zone.after, List.foldl_cons, Zone.next_code fun hq => absurd (hq ▸ h) (by decide)]
    · rfl

theorem kept?_lineMark {k : Text} (h : Zone.code.after k = .code) :
    (∀ u, kept? (k ++ (lineMark ++ u)) = none) ∨
    ∃ code, ∀ u, ∃ line, kept? (k ++ (lineMark ++ u)) = some line ∧ uncommentTail line = code := by
  rw [← after_trimStart] at h
  obtain ⟨code, hc⟩ := cutCode_lineMark h
  have hline : ∀ u, Text.trim (k ++ (lineMark ++ u)) = Text.trimStart k ++ (lineMark ++ Text.trimEnd u) := fun u => by
    rw [Text.trim, solid_lineMark.trimStart_append, solid_lineMark.trimEnd_append]
  have hne : ∀ u, (Text.trimStart k ++ (lineMark ++ Text.trimEnd u)).isEmpty = false := fun u => by simp [lineMark]
  by_cases hd : (Text.dropPrefix? lineMark (Text.trimStart k ++ lineMark)).isSome = true
  · left
    intro u
    rw [kept?]
    simp only [hline, isSome_lineMark, hd, Bool.or_true, if_true]
  · right
    refine ⟨code, fun u => ⟨Text.trim (k ++ (lineMark ++ u)), ?_, ?_⟩⟩
    · rw [kept?]
      simp only [hline, isSome_lineMark, hd, hne, Bool.or_self, Bool.false_eq_true, if_false]
    · obtain ⟨rest, hr⟩ := hc (Text.trimEnd u)
      rw [hline, uncommentTail, hr]

theorem uncomment_lineMark {flag : Bool} {l : Text} (hn : '\n' ∉ l) (h : ((Spot.ofFlag flag).after l).InCode) :
    ∃ k, Zone.code.after k = .code ∧
      ∀ t, Harmless t → ∃ u, uncomment flag (l ++ (lineMark ++ t)) = (k ++ (lineMark ++ u), false) := by
  have hne : (Spot.ofFlag flag).after l ≠ .remark := by
    intro he
    rw [he] at h
    exact h
  obtain ⟨k, hk⟩ := Spot.pass_after (by cases flag <;> simp [Spot.ofFlag]) hn hne
  have hz := hk.zone
  rw [Spot.zone_ofFlag] at hz
  rcases h.cases with hs | hs
  · rw [hs] at hk hz
    refine ⟨k, hz, fun t ht => ?_⟩
    obtain ⟨u, hu, hc⟩ := harmless_iff_pass.1 ht
    refine ⟨u, ?_⟩
    rw [hk.uncomment]
    simp only [Spot.place, Spot.pending, List.nil_append, hu, hc]
  · rw [hs] at hk hz
    refine ⟨k ++ ['/'], ?_, fun t ht => ?_⟩
    · rw [Zone.after, List.foldl_append]
      exact congrArg (Zone.next · '/') hz
    · obtain ⟨u, hu, hc⟩ := harmless_iff_pass.1 ht
      have hp : Place.pass (.outside .code) ('/' :: (lineMark ++ t)) = _ := Place.pass_outside (by simp [lineMark])
      rw [show Zone.code.next '/' = .code from rfl] at hp
      refine ⟨u, ?_⟩
      rw [hk.uncomment]
      simp only [Spot.place, Spot.pending, hp, hu, hc, List.append_assoc, List.cons_append,
        List.nil_append]

namespace Reader

/-- What a line adds to the program, less its text. -/
def statement? (r : Reader) (raw : Text) : Option (Block × Statement) :=
  (r.step raw).2.map fun a => (a.1, Statement.ofLine a.2)

theorem forgetText_readFrom {r : Reader} {raw raw' : Text} (h : (r.step raw).1 = (r.step raw').1)
    (hs : r.statement? raw = r.statement? raw') (n : Nat) (rest : List Text) :
    (r.readFrom n (raw :: rest)).2.forgetText n = (r.readFrom n (raw' :: rest)).2.forgetText n := by
  rw [readFrom_cons, readFrom_cons, h]
  unfold statement? at hs
  rcases h1 : (r.step raw).2 with _ | ⟨b, text⟩
  · rw [h1, Option.map_none, eq_comm, Option.map_eq_none_iff] at hs
    rw [hs]
  · rw [h1, Option.map_some, eq_comm, Option.map_eq_some_iff] at hs
    obtain ⟨⟨b', text'⟩, h2, he⟩ := hs
    obtain ⟨rfl, he⟩ := Prod.mk.inj he
    rw [h2]
    simp only [Program.forgetText_cons, Node.forgetText, he, if_true]

theorem takeLine_congr {r : Reader} {line line' : Text} (h : uncommentTail line = uncommentTail line') :
    r.takeLine line = r.takeLine line' := by
  unfold takeLine; rw [h]

theorem ofLine_congr {line line' : Text} (h : uncommentTail line = uncommentTail line') :
    Statement.ofLine line = Statement.ofLine line' := by
  unfold Statement.ofLine Statement.ofLine? bareCode; rw [h]

/-- Two lines that differ in a harmless comment are read alike. -/
theorem step_lineMark {r : Reader} {l : Text} (hn : '\n' ∉ l) (h : ((Spot.ofFlag r.inComment).after l).InCode)
    {t t' : Text} (ht : Harmless t) (ht' : Harmless t') :
    (r.step (l ++ (lineMark ++ t))).1 = (r.step (l ++ (lineMark ++ t'))).1 ∧
      r.statement? (l ++ (lineMark ++ t)) = r.statement? (l ++ (lineMark ++ t')) := by
  obtain ⟨k, hk, hu⟩ := uncomment_lineMark hn h
  obtain ⟨u, hu1⟩ := hu t ht
  obtain ⟨u', hu2⟩ := hu t' ht'
  unfold statement?
  rcases kept?_lineMark hk with hd | ⟨code, hd⟩
  · rw [step_of_dropped hu1 (hd u), step_of_dropped hu2 (hd u')]
    exact ⟨rfl, rfl⟩
  · obtain ⟨line, hl, hc⟩ := hd u
    obtain ⟨line', hl', hc'⟩ := hd u'
    have htail : uncommentTail line = uncommentTail line' := hc.trans hc'.symm
    rw [step_of_kept hu1 hl, step_of_kept hu2 hl', takeLine_congr htail, Option.map_map, Option.map_map]
    exact ⟨rfl, by simp only [Function.comp_def, ofLine_congr htail]⟩

end Reader

/-- Where a line comment ends the rest of the source begins. -/
theorem lines_lineMark {l rest : Text} (hl : '\n' ∉ l) (hr : Text.BreaksLine rest) :
    ∃ ls, ∀ t, '\n' ∉ t → ∃ t₀, (Harmless t → Harmless t₀) ∧
      Text.lines (l ++ (lineMark ++ (t ++ rest))) = (l ++ (lineMark ++ t₀)) :: ls := by
  have hn : ∀ t, '\n' ∉ t → '\n' ∉ l ++ (lineMark ++ t) := fun t ht => by simp [hl, ht, lineMark]
  rcases hr with rfl | ⟨u, rfl⟩
  · refine ⟨[], fun t ht => ⟨t, id, ?_⟩⟩
    rw [List.append_nil]
    exact Text.lines_last (hn t ht) (by simp [lineMark])
  · refine ⟨Text.lines u, fun t ht => ⟨Text.dropReturn t, harmless_dropReturn.2, ?_⟩⟩
    rw [← Text.dropReturn_behind l (by decide : lineMark ≠ []) rfl t, ← Text.lines_line (hn t ht)]
    simp only [List.append_assoc]

theorem inert_of_harmless {before t t' rest : Text} (ht : '\n' ∉ t) (ht' : '\n' ∉ t') (h : Harmless t)
    (h' : Harmless t') (hb : ((Spot.plain .code).after before).InCode)
    (hc : ∀ u ∈ Spot.remarks (.plain .code) before, Harmless u) (hr : Text.BreaksLine rest) :
    (Program.ofSource (before ++ lineMark ++ t ++ rest)).forgetText (before.count '\n' + 1) =
      (Program.ofSource (before ++ lineMark ++ t' ++ rest)).forgetText (before.count '\n' + 1) := by
  obtain ⟨ls, l, rfl, hls, hl⟩ := Text.exists_lines before
  obtain ⟨post, hpost⟩ := lines_lineMark hl hr
  obtain ⟨u, hu, hlines⟩ := hpost t ht
  obtain ⟨u', hu', hlines'⟩ := hpost t' ht'
  have hn : (ls.flatMap (· ++ ['\n']) ++ l).count '\n' + 1 = 1 + (ls.map Text.dropReturn).length := by
    rw [List.count_append, Text.count_completed hls, List.count_eq_zero.2 hl, List.length_map]
    omega
  rw [Spot.remarks_completed hls] at hc
  have hspot := Reader.inComment_readFrom (r := {}) (n := 1) hls fun t ht => hc t (List.mem_append_left _ ht)
  rw [Spot.after_append] at hb
  change (((Spot.ofFlag false).after _).after l).InCode at hb
  rw [hspot] at hb
  obtain ⟨hstep, hstmt⟩ := Reader.step_lineMark hl hb (hu h) (hu' h')
  simp only [Program.ofSource, Reader.read, List.append_assoc, Text.lines_completed hls, hlines, hlines',
    Reader.readFrom_append, Program.forgetText_append]
  rw [hn]
  exact congrArg _ (Reader.forgetText_readFrom hstep hstmt _ _)

/-- Harmless are the texts that have no slash before a star, the slash of the mark in front of them included. -/
theorem harmless_of_no_opener {t : Text} (h : ¬ openMark <:+: '/' :: t) : Harmless t := by
  refine ⟨t, uncomment_of_not_cutCode ?_⟩
  rcases hc : Zone.cutCode openMark .code (lineMark ++ t) with _ | ⟨kept, rest⟩
  · rfl
  · have ha := Zone.cutCode_append hc
    rcases kept with _ | ⟨c, kept⟩
    · exact absurd (List.cons.inj (List.cons.inj ha).2).1 (by decide)
    · exact absurd ⟨kept, rest, (List.cons.inj ha).2.symm⟩ h

/-! ## Comments that are not harmless -/

def probe : Text := "delay(1);".toList

theorem lines_probe (b : Block) {t : Text} (h : '\n' ∉ t) :
    Text.lines (opening b ++ ['\n'] ++ lineMark ++ t ++ '\n' :: probe) =
      [opening b, lineMark ++ Text.dropReturn t, probe] := by
  have hb : '\n' ∉ opening b := by cases b <;> decide
  have ht : '\n' ∉ lineMark ++ t := by simp [h, lineMark]
  have hd : Text.dropReturn (lineMark ++ t) = lineMark ++ Text.dropReturn t :=
    Text.dropReturn_behind [] (by decide : lineMark ≠ []) rfl t
  have hr : Text.dropReturn (opening b) = opening b := by cases b <;> decide
  have hs : opening b ++ ['\n'] ++ lineMark ++ t ++ '\n' :: probe =
      opening b ++ '\n' :: ((lineMark ++ t) ++ '\n' :: probe) := by simp
  rw [hs, Text.lines_line hb, Text.lines_line ht, hd, hr, Text.lines_last (by decide) (by decide)]

/-- If nothing of a line shows before the probe, nothing is taken of it and the block goes on. -/
theorem Reader.step_of_forgetText {r : Reader} {raw : Text} {b : Block}
    (h : (r.readFrom 2 [raw, probe]).2.forgetText 2 = ({} : Program).cons b ⟨.delay 1, probe, 3⟩) :
    (r.step raw).2 = none ∧ ∃ text, ((r.step raw).1.step probe).2 = some (b, text) := by
  have hl : ∀ b', ((r.readFrom 2 [raw, probe]).2.block b').map Node.line = if b = b' then [3] else [] := fun b' => by
    rw [← Program.lines_forgetText 2, h, Program.block_cons, Program.block_empty]
    split <;> rfl
  rw [readFrom_cons, readFrom_cons] at hl
  rcases h1 : (r.step raw).2 with _ | ⟨b1, t1⟩
  · refine ⟨rfl, ?_⟩
    have hb := hl b
    rw [if_pos rfl] at hb
    rcases h2 : ((r.step raw).1.step probe).2 with _ | ⟨b2, t2⟩
    · simp [h1, h2, readFrom] at hb
    · by_cases hbb : b2 = b
      · exact ⟨t2, by rw [hbb]⟩
      · simp [h1, h2, readFrom, Program.block_cons, hbb] at hb
  · have hb := hl b1
    simp only [h1, Program.block_cons, if_true, List.map_cons] at hb
    by_cases hbb : b = b1
    · rw [if_pos hbb] at hb
      exact absurd (List.cons.inj hb).1 (by decide)
    · rw [if_neg hbb] at hb
      cases hb

theorem uncomment_probe {flag : Bool} (h : kept? (uncomment flag probe).1 ≠ none) : flag = false := by
  cases flag with
  | false => rfl
  | true =>
    rw [uncomment_of_not_cut (by decide)] at h
    exact absurd rfl h

/-- The first slash of a line comment stays where it is. -/
theorem exists_uncomment_lineMark (t : Text) : ∃ w, (uncomment false (lineMark ++ t)).1 = '/' :: w := by
  have hp : Place.pass (.outside .code) ('/' :: '/' :: t) = _ := Place.pass_outside (by simp)
  rw [uncomment_eq_pass, lineMark_append]
  simp only [Place.ofFlag, Bool.false_eq_true, if_false, hp]
  exact ⟨_, rfl⟩

theorem kept?_slash {w : Text} (h : w.head? ≠ some '/') :
    ∃ v, kept? ('/' :: w) = some ('/' :: v) ∧ v.head? ≠ some '/' := by
  have hv : (Text.trimEnd w).head? ≠ some '/' := by
    intro hv
    obtain ⟨v, hv⟩ := List.head?_eq_some_iff.1 hv
    obtain ⟨x, -, hx⟩ := Text.exists_trimEnd w
    rw [← hx, hv] at h
    exact h rfl
  refine ⟨Text.trimEnd w, ?_, hv⟩
  rw [kept?]
  simp only [Text.trim_cons (show Text.isBlank '/' = false by decide), dropPrefix?_lineMark]
  rw [if_neg (by simp [hv])]

theorem codeOf_slash {v : Text} (h : v.head? ≠ some '/') : ∃ c, codeOf ('/' :: v) = '/' :: c := by
  have ht : ∃ x, uncommentTail ('/' :: v) = '/' :: x := by
    rw [uncommentTail, Zone.cutCode, if_pos rfl, dropPrefix?_lineMark, if_neg (by simp [h])]
    rcases Zone.cutCode lineMark (Zone.code.next '/') v with _ | ⟨x, rest⟩
    · exact ⟨v, rfl⟩
    · exact ⟨x, rfl⟩
  obtain ⟨x, hx⟩ := ht
  rw [codeOf, hx, Text.trim_cons (by decide)]
  exact ⟨_, rfl⟩

/-- A comment that shows no trace in two short sketches is harmless. -/
theorem harmless_of_inert {t : Text}
    (h : ∀ b, ((Reader.opened b).readFrom 2 [lineMark ++ t, probe]).2.forgetText 2 =
      ({} : Program).cons b ⟨.delay 1, probe, 3⟩) :
    Harmless t := by
  have key := fun b => Reader.step_of_forgetText (h b)
  rcases hu : uncomment false (lineMark ++ t) with ⟨k, flag⟩
  obtain rfl : flag = false := by
    obtain ⟨text, ht⟩ := (key .setup).2
    have hi : ((Reader.opened .setup).step (lineMark ++ t)).1.inComment = flag :=
      (Reader.step_inComment _ _).trans (congrArg Prod.snd hu)
    rw [Reader.step_snd, hi] at ht
    exact uncomment_probe (by rw [ht.1]; exact Option.some_ne_none text)
  obtain ⟨w, hw⟩ := exists_uncomment_lineMark t
  rw [hu] at hw
  obtain rfl : k = '/' :: w := hw
  by_cases hm : w.head? = some '/'
  · obtain ⟨w, rfl⟩ := List.head?_eq_some_iff.1 hm
    exact ⟨w, hu⟩
  exfalso
  obtain ⟨v, hk, hv⟩ := kept?_slash hm
  obtain ⟨c, hc⟩ := codeOf_slash hv
  -- The rest of the line is read as code: as a statement, or as the signature of a block.
  rcases hs : signature? (codeOf ('/' :: v)) with _ | b'
  · have htaken : ((Reader.opened .setup).step (lineMark ++ t)).2 = some (.setup, '/' :: v) := by
      rw [Reader.step_snd]
      refine ⟨?_, hs, rfl, Int.one_pos, ?_⟩
      · exact (congrArg (fun x => kept? x.1) hu).trans hk
      · rw [hc]; rfl
    rw [(key .setup).1] at htaken
    cases htaken
  · obtain ⟨b, hb⟩ : ∃ b, b' ≠ b := by
      cases b' with
      | setup => exact ⟨.loop, by decide⟩
      | loop => exact ⟨.setup, by decide⟩
    obtain ⟨text, ht⟩ := (key b).2
    rw [Reader.step_snd] at ht
    have hblock := ht.2.2.1
    rw [Reader.step_of_kept (r := .opened b) hu hk, Reader.takeLine_of_signature hs] at hblock
    dsimp only at hblock
    split at hblock
    · cases hblock
    · exact hb (Option.some.inj hblock)

/-- A comment text is harmless if and only if it can be exchanged for any harmless one: behind all code
that ends outside strings and comments, with harmless line comments before it, and with anything on the
lines after it, the program stays the same but for the stored text of the comment's line. -/
theorem harmless_iff_inert {t : Text} (ht : '\n' ∉ t) :
    Harmless t ↔ ∀ before t' rest, '\n' ∉ t' → Harmless t' → ((Spot.plain .code).after before).InCode →
      (∀ u ∈ Spot.remarks (.plain .code) before, Harmless u) → Text.BreaksLine rest →
      (Program.ofSource (before ++ lineMark ++ t ++ rest)).forgetText (before.count '\n' + 1) =
        (Program.ofSource (before ++ lineMark ++ t' ++ rest)).forgetText (before.count '\n' + 1) := by
  constructor
  · intro h before t' rest ht' h' hb hc hr
    exact inert_of_harmless ht ht' h h' hb hc hr
  · intro h
    rw [← harmless_dropReturn]
    refine harmless_of_inert fun b => ?_
    have hb := h (opening b ++ ['\n']) [] ('\n' :: probe) (by simp) (by decide +kernel)
      (by cases b <;> exact rfl) (by cases b <;> decide) (Or.inr ⟨probe, rfl⟩)
    have hn : (opening b ++ ['\n']).count '\n' + 1 = 2 := by cases b <;> decide
    have hempty : (Program.ofSource (opening b ++ ['\n'] ++ lineMark ++ [] ++ '\n' :: probe)).forgetText 2 =
        ({} : Program).cons b ⟨.delay 1, probe, 3⟩ := by cases b <;> decide +kernel
    have hs : Program.ofSource (opening b ++ ['\n'] ++ lineMark ++ t ++ '\n' :: probe) =
        ((Reader.opened b).readFrom 2 [lineMark ++ Text.dropReturn t, probe]).2 := by
      rw [Program.ofSource, Reader.read, lines_probe b ht, Reader.readFrom_cons {} 1, step_opening]
    rwa [hn, hempty, hs] at hb

/-- What a comment says about a pin does not matter. -/
theorem harmless_iff_inert_blink :
    '\n' ∉ " on".toList ∧
      (Program.ofSource ("void loop() \x7b\n  digitalWrite(13, HIGH); ".toList ++ lineMark ++ " on".toList ++
          "\n  delay(500);\n\x7d\n".toList)).forgetText 2 =
        (Program.ofSource ("void loop() \x7b\n  digitalWrite(13, HIGH); ".toList ++ lineMark ++
          " /* led */ off".toList ++ "\n  delay(500);\n\x7d\n".toList)).forgetText 2 := by
  refine ⟨by decide, ?_⟩
  have h := (harmless_iff_inert (t := " on".toList) (by decide)).1 (harmless_of_no_opener (by decide))
    "void loop() \x7b\n  digitalWrite(13, HIGH); ".toList " /* led */ off".toList "\n  delay(500);\n\x7d\n".toList
    (by decide) (by decide +kernel) rfl (by decide) (Or.inr ⟨"  delay(500);\n\x7d\n".toList, by decide⟩)
  have hn : "void loop() \x7b\n  digitalWrite(13, HIGH); ".toList.count '\n' + 1 = 2 := by decide
  rwa [hn] at h

/-- A comment text with the mark of a block comment in it takes the lines after it away. -/
theorem line_comment_not_inert :
    ¬ ∀ before t t' rest, '\n' ∉ t → '\n' ∉ t' → ((Spot.plain .code).after before).InCode →
      Text.BreaksLine rest →
      (Program.ofSource (before ++ lineMark ++ t ++ rest)).forgetText (before.count '\n' + 1) =
        (Program.ofSource (before ++ lineMark ++ t' ++ rest)).forgetText (before.count '\n' + 1) := by
  intro h
  have := h "void loop() \x7b\n".toList " /*".toList [] "\ndelay(1);\n\x7d\n".toList (by decide) (by simp) rfl
    (Or.inr ⟨"delay(1);\n\x7d\n".toList, by decide⟩)
  revert this
  decide +kernel

end Sketch

end Breadboard
