/-
  Breadboard.Proofs.Sketch.Body — which lines of a function's body its block takes.

  The reader tests a line against the depth before the line's own braces. So what stands
  between the opening brace and the end of its line is not taken, and all that follows up to
  the closing brace is: from the end of that line to the end of the body the depth is
  positive (`braces_pos_iff`), for within a balanced body no brace too many is closed.

  Proved: a line with code in the body of a definition gives its block a node if and only if
  it comes after the line of the opening brace (`body_line_taken_iff`). Braces before the
  header on its line must add up to zero, and the opening brace stand on the line if there are
  any (`LevelBefore`); and no other signature may stand on the lines up to the one in question.
  A statement on the line of the opening brace is lost (`brace_line_lost`).
-/

import Mathlib
import Breadboard.Proofs.Sketch.TopLevel
import Breadboard.Proofs.Sketch.Spelling

namespace Breadboard

namespace Sketch

/-! ## Headers -/

/-- `void` and the name of the function of a block on one line, and its parameters. -/
def Header (b : Block) (t : Text) : Prop :=
  ∃ g params, IsGap g ∧ g ≠ [] ∧ '\n' ∉ g ∧ Braceless params ∧
    t = "void".toList ++ g ++ functionName b ++ '(' :: (params ++ [')'])

/-- A definition of the function of a block in a source. -/
structure Defines (s : Text) (b : Block) (before head body after : Text) : Prop where
  source : s = before ++ (head ++ '{' :: (body ++ '}' :: after))
  header : ∃ h g, head = h ++ g ∧ Header b h ∧ IsGap g
  balanced : Balanced body

/-- No braces, or braces on one line that add up to zero. -/
def Level (t : Text) : Prop := Braceless t ∨ net t = 0 ∧ '\n' ∉ t

/-- Before the header on its line there is no brace; or the braces there add up to zero, and the opening brace
stands on the line as well. -/
def LevelBefore (before head : Text) : Prop :=
  ∃ w z, before = w ++ z ∧ Text.EndsLine w ∧ '\n' ∉ z ∧ (Braceless z ∨ net z = 0 ∧ '\n' ∉ head)

theorem Level.net {t : Text} (h : Level t) : Sketch.net t = 0 := by
  rcases h with h | ⟨h, -⟩
  · exact h.net
  · exact h

/-- Up to the beginning of a line in it too. -/
theorem Level.net_left {x r : Text} (h : Level (x ++ r)) (hx : Text.EndsLine x) : Sketch.net x = 0 := by
  rcases h with h | ⟨-, hn⟩
  · exact h.left.net
  · rcases hx with rfl | ⟨v, rfl⟩
    · rfl
    · exact absurd (by simp) hn

theorem Header.braceless {b : Block} {t : Text} (h : Header b t) : Braceless t := by
  obtain ⟨g, params, hg, -, -, hp, rfl⟩ := h
  have hn : Braceless ("void".toList ++ g ++ functionName b) :=
    (Braceless.append (by decide) (braceless_gap hg)).append (by cases b <;> decide)
  have hparens : Braceless ('(' :: (params ++ [')'])) :=
    Braceless.append (t := ['(']) (by decide) (hp.append (by decide))
  exact hn.append hparens

theorem exists_signature {code : Text} {b : Block} (hq : '"' ∉ code) (hv : "void".toList <:+: code)
    (hn : functionName b ++ ['('] <:+: code) : ∃ b', signature? code = some b' := by
  have hv := Text.contains_of_infix hv
  have hn := Text.contains_of_infix hn
  simp only [signature?, Zone.outline_code hq, hv]
  cases b with
  | setup =>
    rw [show "setup(".toList = functionName .setup ++ ['('] from rfl, hn]
    exact ⟨.setup, rfl⟩
  | loop =>
    rw [show "loop(".toList = functionName .loop ++ ['('] from rfl, hn]
    cases Text.contains "setup(".toList code
    · exact ⟨.loop, rfl⟩
    · exact ⟨.setup, rfl⟩

/-- The line of a header has a signature. -/
theorem exists_signatureAt {s w z h x : Text} {b : Block} (hs : s = w ++ (z ++ (h ++ x))) (hq : '"' ∉ s)
    (hw : Text.EndsLine w) (hz : '\n' ∉ z) (hh : Header b h) : ∃ b', SignatureAt (Text.lines s) b' (w.count '\n') := by
  obtain ⟨g, params, hg, -, hgn, -, rfl⟩ := hh
  obtain ⟨e, r, he, hen, hr⟩ := Text.exists_breaksLine (params ++ ')' :: x)
  obtain ⟨m, hm⟩ : ∃ m, m = "void".toList ++ g ++ functionName b ++ ['('] := ⟨_, rfl⟩
  have hmn : '\n' ∉ m := by
    have : '\n' ∉ functionName b := by cases b <;> decide
    simp [hm, hgn, this]
  have hline : s = w ++ ((z ++ (m ++ e)) ++ r) := by
    have : z ++ (m ++ (params ++ ')' :: x)) = z ++ (m ++ e) ++ r := by rw [he]; simp
    rw [hs, ← this, hm]
    simp
  obtain ⟨l, hl, hlm⟩ := hw.getElem?_lines (m := z ++ (m ++ e)) (by simp [hz, hmn, hen]) hr (by simp [hm])
  rw [← hline] at hl
  have htrim : Text.trim l = Text.trim (z ++ (m ++ e)) := by
    rcases hlm with rfl | rfl
    · rfl
    · exact Text.trim_dropReturn _
  have hsolid : Text.Solid m := by
    have hv : Text.Solid "void".toList := ⟨⟨'v', "oid".toList, rfl, by decide⟩, ⟨"voi".toList, 'd', rfl, by decide⟩⟩
    have hp : Text.Solid ['('] := Text.solid_singleton (by decide)
    have := hv.append hp (g ++ functionName b)
    rw [hm]
    simpa using this
  have hinfix : m <:+: Text.trim l := htrim ▸ hsolid.infix_trim ⟨z, e, by simp⟩
  have hquote : '"' ∉ Text.trim l := by
    intro hc
    rw [htrim, mem_trim (by decide)] at hc
    exact hq (hline ▸ List.mem_append_right w (List.mem_append_left r hc))
  have hvoid : "void".toList <:+: m := ⟨[], g ++ functionName b ++ ['('], by simp [hm]⟩
  have hname : functionName b ++ ['('] <:+: m := ⟨"void".toList ++ g, [], by simp [hm]⟩
  obtain ⟨b', hb'⟩ := exists_signature hquote (hvoid.trans hinfix) (hname.trans hinfix)
  exact ⟨b', l, hl, hb'⟩

/-! ## The depth in a body -/

/-- With a line end and an opening brace in it a text in front of another one goes behind the brace of the body. -/
theorem Level.exists_behind {y u x r : Text} (h : Level y) (hx : y ++ '{' :: u = x ++ r) (hn : '\n' ∈ x)
    (hm : '{' ∈ x) : ∃ x', x = y ++ '{' :: x' := by
  have hy : ¬ ('\n' ∈ y ∧ '{' ∈ y) := by
    rintro ⟨hny, hmy⟩
    rcases h with h | ⟨-, h⟩
    · exact h.1 hmy
    · exact h hny
  rcases List.append_eq_append_iff.1 hx with ⟨a, rfl, ha⟩ | ⟨a, rfl, -⟩
  · rcases a with _ | ⟨d, a⟩
    · rw [List.append_nil] at hn hm
      exact absurd ⟨hn, hm⟩ hy
    · obtain ⟨rfl, -⟩ := List.cons.inj ha
      exact ⟨a, rfl⟩
  · exact absurd ⟨List.mem_append_left a hn, List.mem_append_left a hm⟩ hy

section

variable {s w y u t : Text} {b : Block} {j k : Nat}

/-- The beginning of each line from the header's on, up to a place in the body. -/
theorem exists_start_behind (hw : Text.EndsLine w) (hj : w.count '\n' ≤ j)
    (hjk : j ≤ (w ++ (y ++ '{' :: u)).count '\n') :
    ∃ x r, y ++ '{' :: u = x ++ r ∧ Text.EndsLine (w ++ x) ∧ (w ++ x).count '\n' = j := by
  rw [List.count_append] at hjk
  obtain ⟨x, r, hx, hxe, hc⟩ := Text.exists_start (t := y ++ '{' :: u) (j := j - w.count '\n') (by omega)
  refine ⟨x, r, hx, ?_, by rw [List.count_append, hc]; omega⟩
  rcases hxe with rfl | ⟨v, rfl⟩
  · rwa [List.append_nil]
  · exact Or.inr ⟨w ++ v, by simp⟩

/-- The last line before a place in the body begins behind the opening brace if and only if a line ends between
the brace and the place. -/
theorem behind_iff_newline {x r : Text} (hx : y ++ '{' :: u = x ++ r) (hxe : Text.EndsLine (w ++ x)) (hr : '\n' ∉ r) :
    (∃ x', x = y ++ '{' :: x') ↔ '\n' ∈ u := by
  constructor
  · rintro ⟨x', rfl⟩
    have hmem : '\n' ∈ '{' :: x' := by
      rw [← List.append_assoc] at hxe
      exact hxe.right.mem (List.cons_ne_nil '{' x')
    have hu : u = x' ++ r := by simpa using hx
    rw [hu]
    exact List.mem_append_left r (by simpa using hmem)
  · intro hn
    rcases List.append_eq_append_iff.1 hx with ⟨a, rfl, ha⟩ | ⟨a, -, rfl⟩
    · rcases a with _ | ⟨d, a⟩
      · rw [List.nil_append] at ha
        exact absurd (ha ▸ List.mem_cons_of_mem '{' hn) hr
      · obtain ⟨rfl, -⟩ := List.cons.inj ha
        exact ⟨a, rfl⟩
    · exact absurd (List.mem_append_right a (List.mem_cons_of_mem '{' hn)) hr

variable (hs : s = w ++ (y ++ '{' :: (u ++ t))) (hq : '"' ∉ s) (hw : Text.EndsLine w)
  (hy : Level y) (hu : ∀ u₁ u₂, u = u₁ ++ u₂ → 0 ≤ net u₁)

include hs hq hw hy hu

/-- The braces from the header on are positive exactly behind the opening brace. -/
theorem braces_pos_iff {x r : Text} (hx : y ++ '{' :: u = x ++ r) (hxe : Text.EndsLine (w ++ x)) :
    0 < braces (Text.lines s) (w.count '\n') ((w ++ x).count '\n') ↔ ∃ x', x = y ++ '{' :: x' := by
  have hsplit : s = w ++ (x ++ (r ++ t)) := by
    have hline : y ++ '{' :: (u ++ t) = x ++ (r ++ t) := by
      rw [← List.append_assoc, ← hx]
      simp
    rw [hs, hline]
  rw [braces_eq_net hsplit hq hw hxe.right]
  constructor
  · intro hpos
    rcases List.append_eq_append_iff.1 hx with ⟨a, rfl, ha⟩ | ⟨a, rfl, -⟩
    · rcases a with _ | ⟨d, a⟩
      · rw [List.append_nil, hy.net] at hpos
        omega
      · obtain ⟨rfl, -⟩ := List.cons.inj ha
        exact ⟨a, rfl⟩
    · rw [hy.net_left hxe.right] at hpos
      omega
  · rintro ⟨x', rfl⟩
    have hu' : u = x' ++ r := by simpa using hx
    have := hu x' r hu'
    simp only [net_append, hy.net, net_cons, show Zone.braceValue '{' = 1 from rfl]
    omega

/-- Up to a place in the body that is not on the line of the opening brace the block stays open. -/
theorem open_in_body (hn : '\n' ∈ u) (hk : (w ++ (y ++ '{' :: u)).count '\n' = k)
    (hsig : SignatureAt (Text.lines s) b (w.count '\n'))
    (hlast : ∀ j b', w.count '\n' < j → j < k → ¬ SignatureAt (Text.lines s) b' j) :
    Open (Text.lines s) b (w.count '\n') k := by
  have hcount : 0 < u.count '\n' := List.count_pos_iff.2 hn
  have hik : w.count '\n' < k := by
    rw [← hk, List.count_append, List.count_append, List.count_cons]
    omega
  refine ⟨hik, hsig, hlast, ?_, ?_⟩
  · intro l hl hm
    obtain ⟨x, r, hx, hxe, hxc⟩ := exists_start_behind (y := y) (u := u) (j := w.count '\n' + 1) hw (by omega)
      (by omega)
    have hline : y ++ '{' :: (u ++ t) = x ++ (r ++ t) := by
      rw [← List.append_assoc, ← hx]
      simp
    have hone : x.count '\n' = 1 := by
      rw [List.count_append] at hxc
      omega
    rw [hs, hline] at hl
    obtain ⟨x', rfl⟩ := hy.exists_behind hx (List.count_pos_iff.1 (by omega)) (hw.mem_of_mem_line hxe.right hone hl hm)
    rw [← hxc]
    exact (braces_pos_iff hs hq hw hy hu hx hxe).2 ⟨x', rfl⟩
  · intro j j' hj hjj hjk hpos
    obtain ⟨x', r', hx', hxe', rfl⟩ := exists_start_behind (y := y) (u := u) (j := j') hw (by omega) (by omega)
    obtain ⟨x, r, hx, hxe, rfl⟩ := exists_start_behind (y := y) (u := u) (j := j) hw (by omega) (by omega)
    obtain ⟨a, rfl⟩ := (braces_pos_iff hs hq hw hy hu hx hxe).1 hpos
    have hr : w ++ (y ++ '{' :: a) ++ r = w ++ x' ++ r' := by rw [List.append_assoc, ← hx, List.append_assoc, ← hx']
    obtain ⟨d, hd⟩ := hxe.exists_append hr hjj
    rw [List.append_assoc] at hd
    refine (braces_pos_iff hs hq hw hy hu hx' hxe').2 ⟨a ++ d, ?_⟩
    rw [List.append_cancel_left hd]
    simp

/-- A line with code in the body is taken if and only if it is not the line of the opening brace. -/
theorem taken_in_body_iff {c : Char} {t' : Text} (ht : t = c :: t') (hc : isBraceOrBlank c = false)
    (hk : (w ++ (y ++ '{' :: u)).count '\n' = k) (hsig : SignatureAt (Text.lines s) b (w.count '\n'))
    (hlast : ∀ j b', w.count '\n' < j → j ≤ k → ¬ SignatureAt (Text.lines s) b' j) :
    (∃ i, Taken (Text.lines s) b i k) ↔ '\n' ∈ u := by
  have hik : w.count '\n' ≤ k := by
    rw [← hk, List.count_append]
    omega
  obtain ⟨x, r, hx, hxe, hxk⟩ := exists_start_behind (y := y) (u := u) (j := k) hw hik hk.ge
  have hr : '\n' ∉ r := by
    rw [hx, ← List.append_assoc, List.count_append, hxk] at hk
    exact List.count_eq_zero.1 (by omega)
  have hpos := braces_pos_iff hs hq hw hy hu hx hxe
  rw [hxk, behind_iff_newline hx hxe hr] at hpos
  rw [← hpos]
  constructor
  · rintro ⟨i, hi⟩
    obtain rfl : i = w.count '\n' := by
      rcases Nat.lt_trichotomy i (w.count '\n') with hlt | rfl | hlt
      · -- The header's line is no later than the taken one, and has a signature.
        rcases Nat.lt_or_eq_of_le hik with hlk | hlk
        · exact absurd hsig (hi.isOpen.last _ b hlt hlk)
        · exact absurd hsig (hlk ▸ hi.unsigned b)
      · rfl
      · exact absurd hi.isOpen.signature (hlast i b hlt hi.isOpen.before.le)
    exact hi.deep
  · intro hdeep
    have hn := hpos.1 hdeep
    have hlt : w.count '\n' < k := by
      rw [← hk, List.count_append, List.count_append, List.count_cons]
      have := List.count_pos_iff.2 hn
      omega
    refine ⟨w.count '\n', open_in_body hs hq hw hy hu hn hk hsig fun j b' hj hjk => hlast j b' hj hjk.le, hdeep,
      fun b' => hlast k b' hlt (Nat.le_refl k), ?_⟩
    have hblank : Text.isBlank c = false := (Bool.or_eq_false_iff.1 hc).2
    have hline : s = w ++ x ++ (r ++ c :: t') := by
      have := congrArg (· ++ t) hx
      rw [hs, ht]
      simpa [ht] using this
    obtain ⟨l, hl, hcl⟩ := hxe.exists_line_of_mem (r := t') hr hblank
    rw [← hline, hxk] at hl
    exact ⟨l, hl, List.all_eq_false.2 ⟨c, hcl, by simp [hc]⟩⟩

end

/-! ## Definitions -/

theorem exists_node_iff {ls : List Text} {b : Block} {k : Nat} (hc : ∀ l ∈ ls, CommentFree l) :
    (∃ x ∈ (({} : Reader).readFrom 1 ls).2.block b, x.line = k + 1) ↔ ∃ i, Taken ls b i k := by
  constructor
  · rintro ⟨x, hx, hk⟩
    obtain ⟨i, k', l, -, ht, rfl⟩ := (mem_block_iff hc).1 hx
    obtain rfl : k' = k := Nat.succ.inj hk
    exact ⟨i, ht⟩
  · rintro ⟨i, ht⟩
    obtain ⟨l, hl, -⟩ := ht.code
    exact ⟨_, (mem_block_iff hc).2 ⟨i, k, l, hl, ht, rfl⟩, rfl⟩

/-- A line with code in the body of a definition gives the block a node if and only if a line ends between the
opening brace and the code, where braces before the header on its line do not matter and no signature but that of
the header stands on the lines from it on. -/
theorem body_line_taken_iff {s before head body after u v : Text} {b : Block} {c : Char} {k : Nat} (hp : Plain s)
    (hd : Defines s b before head body after) (hb : LevelBefore before head) (hbody : body = u ++ c :: v)
    (hc : isBraceOrBlank c = false) (hk : (before ++ (head ++ '{' :: u)).count '\n' = k)
    (hsig : ∀ j b', before.count '\n' ≤ j → j ≤ k → SignatureAt (Text.lines s) b' j →
      j = before.count '\n' ∧ b' = b) :
    (∃ x ∈ (Program.ofSource s).block b, x.line = k + 1) ↔ '\n' ∈ u := by
  obtain ⟨w, z, rfl, hw, hzn, hz⟩ := hb
  obtain ⟨h, g, rfl, hh, hg⟩ := hd.header
  have hhead : Braceless (h ++ g) := hh.braceless.append (braceless_gap hg)
  have hcount : (w ++ z).count '\n' = w.count '\n' := by
    rw [List.count_append, List.count_eq_zero.2 hzn, Nat.add_zero]
  rw [hcount] at hsig
  have hy : Level (z ++ (h ++ g)) := by
    rcases hz with hz | ⟨hz, hgn⟩
    · exact Or.inl (hz.append hhead)
    · refine Or.inr ⟨?_, by simpa [hzn] using hgn⟩
      rw [net_append, hz, hhead.net]
      rfl
  have hs : s = w ++ ((z ++ (h ++ g)) ++ '{' :: (u ++ (c :: (v ++ '}' :: after)))) := by
    rw [hd.source, hbody]
    simp
  have hu : ∀ u₁ u₂, u = u₁ ++ u₂ → 0 ≤ net u₁ := by
    rintro u₁ u₂ rfl
    have hbal := hd.balanced
    rw [hbody, List.append_assoc] at hbal
    exact hbal.nonneg
  have hk' : (w ++ ((z ++ (h ++ g)) ++ '{' :: u)).count '\n' = k := by
    rw [← hk]
    simp
  have hik : w.count '\n' ≤ k := by
    rw [← hk', List.count_append]
    omega
  have hsign : SignatureAt (Text.lines s) b (w.count '\n') := by
    obtain ⟨b', hb'⟩ := exists_signatureAt (x := g ++ '{' :: (body ++ '}' :: after))
      (hd.source.trans (by simp only [List.append_assoc])) hp.quote hw hzn hh
    obtain ⟨-, rfl⟩ := hsig _ b' (Nat.le_refl _) hik hb'
    exact hb'
  rw [Program.ofSource, Reader.read, exists_node_iff hp.lines]
  refine taken_in_body_iff hs hp.quote hw hy hu rfl hc hk' hsign fun j b' hj hjk hbj => ?_
  have := (hsig j b' hj.le hjk hbj).1
  omega

def blinkBelow : Text := "void loop()\n\x7b\n  delay(500);\n\x7d\n".toList

theorem defines_blinkBelow :
    Defines blinkBelow .loop [] "void loop()\n".toList "\n  delay(500);\n".toList "\n".toList where
  source := by decide
  header := ⟨"void loop()".toList, "\n".toList, by decide,
    ⟨" ".toList, [], by decide, by decide, by decide, by decide, by decide⟩, by decide⟩
  balanced := by decide +kernel

theorem body_line_taken_iff_blink :
    Plain blinkBelow ∧ ∃ x ∈ (Program.ofSource blinkBelow).block .loop, x.line = 3 := by
  have hp : Plain blinkBelow := by decide +kernel
  have hsig : ∀ j ≤ 2, ¬ SignatureAt (Text.lines blinkBelow) .setup j ∧
      (SignatureAt (Text.lines blinkBelow) .loop j → j = 0) := by
    decide +kernel
  have hb : LevelBefore [] "void loop()\n".toList := ⟨[], [], rfl, Or.inl rfl, List.not_mem_nil, Or.inl (by decide)⟩
  have hbody : "\n  delay(500);\n".toList = "\n  ".toList ++ 'd' :: "elay(500);\n".toList := by decide
  refine ⟨hp, (body_line_taken_iff hp defines_blinkBelow hb hbody (by decide) (by decide) fun j b' _ hj h => ?_).2
    (by decide)⟩
  cases b' with
  | setup => exact absurd h (hsig j hj).1
  | loop => exact ⟨(hsig j hj).2 h, rfl⟩

-- Behind a closing brace on its line a header does not open its block.
example : (Program.ofSource "void setup() \x7b\n\x7d void loop() \x7b\n  delay(500);\n\x7d\n".toList).loop = [] := by
  decide +kernel

def braceLine : Text := "void setup()\n\x7b delay(1);\n\x7d\n".toList

theorem defines_braceLine :
    Defines braceLine .setup [] "void setup()\n".toList " delay(1);\n".toList "\n".toList where
  source := by decide
  header := ⟨"void setup()".toList, "\n".toList, by decide,
    ⟨" ".toList, [], by decide, by decide, by decide, by decide, by decide⟩, by decide⟩
  balanced := by decide +kernel

theorem header_braceLine {b : Block} {before h rest : Text} (hs : braceLine = before ++ (h ++ rest))
    (hh : Header b h) : ∃ g r, IsGap g ∧ rest = g ++ '{' :: r := by
  obtain ⟨g, params, hg, -, -, hp, rfl⟩ := hh
  -- The only `v` of the source begins it.
  obtain rfl : before = [] := by
    have hv : 'v' ∉ before := by
      have hc := congrArg (List.count 'v') hs
      rw [show braceLine.count 'v' = 1 by decide, List.count_append, List.append_assoc, List.append_assoc,
        List.append_assoc, List.count_append, show "void".toList.count 'v' = 1 by decide] at hc
      exact List.count_eq_zero.1 (by omega)
    have hcut := Text.cut_of_not_mem hv ("oid".toList ++ g ++ functionName b ++ '(' :: (params ++ [')']) ++ rest)
    have hsplit : before ++ 'v' :: ("oid".toList ++ g ++ functionName b ++ '(' :: (params ++ [')']) ++ rest) =
        braceLine := by
      rw [hs]
      simp
    have hfirst : Text.cut ['v'] braceLine = some ([], braceLine.tail) := by decide
    rw [hsplit, hfirst] at hcut
    exact (Prod.mk.inj (Option.some.inj hcut)).1.symm
  have hparen : '(' ∉ "void".toList ++ g ++ functionName b := by
    have hn : '(' ∉ functionName b := by cases b <;> decide
    have hgap : '(' ∉ g := Text.not_mem_gap hg (by decide)
    simp [hn, hgap]
  have hcut := Text.cut_of_not_mem hparen (params ++ ')' :: rest)
  have hsplit : "void".toList ++ g ++ functionName b ++ '(' :: (params ++ ')' :: rest) = braceLine := by
    rw [hs]
    simp
  have hfirst : Text.cut ['('] braceLine = some ("void setup".toList, ")\n\x7b delay(1);\n\x7d\n".toList) := by decide
  rw [hsplit, hfirst] at hcut
  have hrest : [')', '\n', '{'] ++ " delay(1);\n\x7d\n".toList = params ++ ')' :: rest :=
    (Prod.mk.inj (Option.some.inj hcut)).2
  -- Parameters with more than nothing in them would go over the brace.
  rcases params with _ | ⟨c, _ | ⟨d, _ | ⟨e, params⟩⟩⟩
  · exact ⟨['\n'], " delay(1);\n\x7d\n".toList, by decide, (List.cons.inj hrest).2.symm⟩
  · simp at hrest
  · simp at hrest
  · obtain ⟨-, -, rfl, -⟩ : ')' = c ∧ '\n' = d ∧ '{' = e ∧ _ := by simpa using hrest
    exact absurd (by simp) hp.1

/-- A statement on the line of the opening brace is lost. -/
theorem brace_line_lost :
    ¬ ∀ s, Plain s → Balanced s →
      (∀ b before h rest, s = before ++ (h ++ rest) → Header b h → ∃ g r, IsGap g ∧ rest = g ++ '{' :: r) →
      ∀ b before head body after u c v, Defines s b before head body after → body = u ++ c :: v →
        isBraceOrBlank c = false →
          ∃ x ∈ (Program.ofSource s).block b, x.line = (before ++ (head ++ '{' :: u)).count '\n' + 1 := by
  intro h
  obtain ⟨x, hx, -⟩ := h braceLine (by decide +kernel) (by decide +kernel) (fun _ _ _ _ => header_braceLine) .setup
    _ _ _ _ " ".toList 'd' "elay(1);\n".toList defines_braceLine (by decide) (by decide)
  have hnone : (Program.ofSource braceLine).block .setup = [] := by decide +kernel
  rw [hnone] at hx
  cases hx

end Sketch

end Breadboard
