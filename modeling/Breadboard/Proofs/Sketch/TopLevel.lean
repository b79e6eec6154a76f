/-
  Breadboard.Proofs.Sketch.TopLevel — what the blocks take from sketches made of functions and declarations.

  A sketch without strings and comments is a list of items: definitions with a balanced body,
  prototypes and variables that end in a semicolon, and gaps. The reader knows no items. Any
  line with `void` and `setup(` on it opens the block, be it a prototype or a function with a
  longer name, and what the block then takes is decided by the braces that follow
  (`mem_block_iff`).

  Proved: which lines are taken, and that they lie between the braces of a definition of the
  block if every line with its signature begins such a definition and has no brace before it,
  the opening brace stands on that line or the braces on two lines, and nothing follows the
  closing brace on its line (`taken_and_inside_of_begins`). Without this it fails
  (`block_takes_other_functions`).
-/

import Mathlib
import Breadboard.Proofs.Sketch.Extent

namespace Breadboard.Sketch

/-! ## Braces of a text -/

/-- Opening less closing braces. -/
def net (t : Text) : Int := (t.map Zone.braceValue).sum

@[simp] theorem net_nil : net [] = 0 := rfl
@[simp] theorem net_cons (c : Char) (t : Text) : net (c :: t) = Zone.braceValue c + net t := by simp [net]
@[simp] theorem net_append (s t : Text) : net (s ++ t) = net s + net t := by simp [net]

theorem net_eq_zero {t : Text} (h : ∀ c ∈ t, Zone.braceValue c = 0) : net t = 0 := by
  induction t with
  | nil => rfl
  | cons c t ih =>
    rw [List.forall_mem_cons] at h
    rw [net_cons, h.1, ih h.2, add_zero]

theorem net_gap {g : Text} (h : IsGap g) : net g = 0 := net_eq_zero fun c hc => braceValue_blank (h c hc)

/-- A text without braces. -/
def Braceless (t : Text) : Prop := '{' ∉ t ∧ '}' ∉ t

instance (t : Text) : Decidable (Braceless t) := inferInstanceAs (Decidable (_ ∧ _))

theorem Braceless.net {t : Text} (h : Braceless t) : Sketch.net t = 0 := by
  refine net_eq_zero fun c hc => ?_
  unfold Zone.braceValue
  split
  · exact absurd hc h.1
  · exact absurd hc h.2
  · rfl

theorem Braceless.left {t u : Text} (h : Braceless (t ++ u)) : Braceless t :=
  ⟨fun hm => h.1 (List.mem_append_left u hm), fun hm => h.2 (List.mem_append_left u hm)⟩

theorem Braceless.append {t u : Text} (ht : Braceless t) (hu : Braceless u) : Braceless (t ++ u) :=
  ⟨by simp [ht.1, hu.1], by simp [ht.2, hu.2]⟩

theorem braceless_gap {g : Text} (hg : IsGap g) : Braceless g :=
  ⟨Text.not_mem_gap hg (by decide), Text.not_mem_gap hg (by decide)⟩

theorem netBraces_eq_net {t : Text} (h : '"' ∉ t) : Zone.netBraces .code t = net t := by
  induction t with
  | nil => rfl
  | cons c t ih =>
    rw [List.mem_cons, not_or] at h
    rw [Zone.netBraces, if_pos rfl, Zone.next_code (Ne.symm h.1), ih h.2, net_cons]

/-- A text in which each closing brace has an opening one before it and none is left open. -/
def Balanced (t : Text) : Prop := net t = 0 ∧ ∀ u ∈ t.inits, 0 ≤ net u

instance (t : Text) : Decidable (Balanced t) := inferInstanceAs (Decidable (_ ∧ _))

theorem Balanced.nonneg {u v : Text} (h : Balanced (u ++ v)) : 0 ≤ net u :=
  h.2 u ((List.mem_inits u _).2 (List.prefix_append u v))

/-! ## Sources without strings and comments -/

structure Plain (t : Text) : Prop where
  quote : '"' ∉ t
  line : ¬ lineMark <:+: t
  block : ¬ openMark <:+: t

instance (t : Text) : Decidable (Plain t) :=
  decidable_of_iff ('"' ∉ t ∧ ¬ lineMark <:+: t ∧ ¬ openMark <:+: t)
    ⟨fun h => ⟨h.1, h.2.1, h.2.2⟩, fun h => ⟨h.quote, h.line, h.block⟩⟩

theorem Plain.of_infix {s t : Text} (h : Plain t) (hs : s <:+: t) : Plain s :=
  ⟨fun hm => h.quote (hs.subset hm), fun hm => h.line (hm.trans hs), fun hm => h.block (hm.trans hs)⟩

theorem Plain.commentFree {t : Text} (h : Plain t) : CommentFree t :=
  ⟨cutCode_eq_none h.line .code, cutCode_eq_none h.block .code⟩

theorem Plain.lines {t : Text} (h : Plain t) : ∀ l ∈ Text.lines t, CommentFree l := fun _ hl =>
  (h.of_infix (Text.infix_of_mem_lines hl)).commentFree

theorem net_dropReturn (t : Text) : net (Text.dropReturn t) = net t := by
  rcases Text.dropReturn_cases t with h | ⟨s, rfl, h⟩
  · rw [h]
  · rw [h, net_append]; simp [Zone.braceValue]

theorem sum_lines {t : Text} (h : '"' ∉ t) (ht : Text.EndsLine t) :
    ((Text.lines t).map (Zone.netBraces .code)).sum = net t := by
  obtain ⟨ls, rfl, hls⟩ := ht.exists_lines
  have he := Text.lines_completed hls []
  rw [List.append_nil] at he
  rw [he, show Text.lines [] = [] from rfl, List.append_nil]
  clear he ht
  induction ls with
  | nil => rfl
  | cons l ls ih =>
    rw [List.forall_mem_cons] at hls
    simp only [List.flatMap_cons, List.mem_append, not_or] at h
    have hl : '"' ∉ Text.dropReturn l := fun hm => h.1.1 (Text.mem_of_mem_dropReturn hm)
    simp only [List.map_cons, List.sum_cons, List.flatMap_cons, net_append]
    rw [ih hls.2 h.2, netBraces_eq_net hl, net_dropReturn]
    simp [Zone.braceValue]

/-- The braces of some lines are those of the text between them. -/
theorem braces_eq_net {s w x v : Text} (hs : s = w ++ (x ++ v)) (hq : '"' ∉ s) (hw : Text.EndsLine w)
    (hx : Text.EndsLine x) :
    braces (Text.lines s) (w.count '\n') ((w ++ x).count '\n') = net x := by
  subst hs
  have hqx : '"' ∉ x := fun hm => hq (by simp [hm])
  rw [hw.lines_append, hx.lines_append, ← List.append_assoc, braces, List.count_append, ← hw.length_lines,
    ← hx.length_lines, ← List.length_append, List.take_left, List.drop_left, sum_lines hqx hx]

/-! ## A definition and the lines that it takes -/

/-- A definition, in parts, that line `i` begins so that the reader can follow it. -/
structure Aligned (before head body after : Text) (i : Nat) : Prop where
  /-- No brace stands between the beginning of the line and the opening brace. -/
  clear : ∃ w z, before ++ head = w ++ z ∧ Text.EndsLine w ∧ w.count '\n' = i ∧ Braceless z
  /-- The opening brace stands on the line, or the two braces on different lines. -/
  opening : (before ++ head).count '\n' = i ∨ '\n' ∈ body
  /-- Nothing follows the closing brace on its line. -/
  closing : ∃ g r, after = g ++ r ∧ IsGap g ∧ '\n' ∉ g ∧ Text.BreaksLine r

/-- Of two places in a text the one on the later line is further on. -/
theorem exists_between {w t p v : Text} (h : w ++ t = p ++ v) (hlt : w.count '\n' < p.count '\n') :
    ∃ x, p = w ++ x ∧ t = x ++ v := by
  rcases List.append_eq_append_iff.1 h with ⟨x, hp, ht⟩ | ⟨x, hw, -⟩
  · exact ⟨x, hp, ht⟩
  · rw [hw, List.count_append] at hlt
    omega

variable {s w z body g r v : Text} {b : Block} {i k : Nat}

section

variable {x y : Text} (hs : s = w ++ (x ++ (y ++ v))) (hx : x = z ++ '{' :: (body ++ '}' :: (g ++ ['\n'])))
  (hq : '"' ∉ s) (hw : Text.EndsLine w) (hz : Braceless z) (hbal : Balanced body) (hg : IsGap g) (hgn : '\n' ∉ g)

include hs hx hq hw hz hbal hg

/-- At the end of the last line of a definition its braces add up to zero. -/
theorem braces_definition : braces (Text.lines s) (w.count '\n') ((w ++ x).count '\n') = 0 := by
  rw [braces_eq_net hs hq hw (Or.inr ⟨z ++ '{' :: (body ++ '}' :: g), by simp [hx]⟩), hx]
  simp [hz.net, net_gap hg, hbal.1, Zone.braceValue]

/-- With a line end in the body the braces were positive before. -/
theorem not_open_past_body (hn : '\n' ∈ body) (hk : (w ++ x).count '\n' ≤ k) :
    ¬ Open (Text.lines s) b (w.count '\n') k := by
  intro ho
  have hzero := braces_definition hs hx hq hw hz hbal hg
  obtain ⟨b₁, b₂, rfl⟩ := List.append_of_mem hn
  have hpos := braces_eq_net (w := w) (x := z ++ '{' :: (b₁ ++ ['\n'])) (v := b₂ ++ '}' :: (g ++ '\n' :: (y ++ v)))
    (by simp [hs, hx]) hq hw (Or.inr ⟨z ++ '{' :: b₁, by simp⟩)
  have hb₁ := hbal.nonneg
  have hstay := ho.stays ((w ++ (z ++ '{' :: (b₁ ++ ['\n']))).count '\n') ((w ++ x).count '\n')
    (by simp [List.count_append]) (by simp [hx, List.count_append]) hk
  rw [hpos, hzero] at hstay
  simp [hz.net, Zone.braceValue] at hstay
  omega

include hgn

/-- With both braces on the line of the header the block is closed at once. -/
theorem not_open_past_line (hzn : '\n' ∉ z) (hn : '\n' ∉ body) : ¬ Open (Text.lines s) b (w.count '\n') k := by
  intro ho
  have hzero := braces_definition hs hx hq hw hz hbal hg
  have hone : (w ++ x).count '\n' = w.count '\n' + 1 := by
    simp [hx, List.count_append, List.count_eq_zero.2 hzn, List.count_eq_zero.2 hn, List.count_eq_zero.2 hgn]
  have hline : '\n' ∉ z ++ '{' :: (body ++ '}' :: g) := by simp [hzn, hn, hgn]
  have hl : (Text.lines s)[w.count '\n']? = some (Text.dropReturn (z ++ '{' :: (body ++ '}' :: g))) := by
    have hsplit : s = w ++ ((z ++ '{' :: (body ++ '}' :: g)) ++ '\n' :: (y ++ v)) := by simp [hs, hx]
    rw [hsplit, hw.lines_append, Text.lines_line hline, ← hw.length_lines, List.getElem?_append_right (Nat.le_refl _),
      Nat.sub_self]
    rfl
  have hmem : '{' ∈ Text.dropReturn (z ++ '{' :: (body ++ '}' :: g)) := by
    rw [Text.dropReturn_append z (List.cons_ne_nil _ _), Text.dropReturn_cons (by simp)]
    simp
  have hpos := ho.opens _ hl hmem
  rw [← hone, hzero] at hpos
  omega

end

/-- With a positive sum of braces a place is behind the first brace, an opening one. -/
theorem exists_behind {x t : Text} (h : z ++ '{' :: t = x ++ v) (hz : Braceless z) (hpos : 0 < net x) :
    ∃ x', x = z ++ '{' :: x' ∧ t = x' ++ v := by
  rcases List.append_eq_append_iff.1 h with ⟨x', rfl, hx⟩ | ⟨x', rfl, -⟩
  · rcases x' with _ | ⟨d, x'⟩
    · rw [List.append_nil, hz.net] at hpos
      omega
    · rw [List.cons_append] at hx
      obtain ⟨rfl, ht⟩ := List.cons.inj hx
      exact ⟨x', rfl, ht⟩
  · rw [hz.left.net] at hpos
    omega

/-- Code on a line that begins in the body stands in the body. -/
theorem mem_body {y m e : Text} {c : Char} (h : m ++ e = y ++ '}' :: (g ++ r)) (hg : IsGap g)
    (hr : Text.BreaksLine r) (hm : '\n' ∉ m) (hc : c ∈ m) (hcode : isBraceOrBlank c = false) :
    ∃ u v, y = u ++ c :: v ∧ '\n' ∉ u := by
  rcases List.append_eq_append_iff.1 h with ⟨x, rfl, -⟩ | ⟨x, rfl, hx⟩
  · obtain ⟨u, v, rfl⟩ := List.append_of_mem hc
    exact ⟨u, v ++ x, by simp, fun hu => hm (List.mem_append_left _ hu)⟩
  · rcases List.mem_append.1 hc with hy | hcx
    · obtain ⟨u, v, rfl⟩ := List.append_of_mem hy
      exact ⟨u, v, rfl, fun hu => hm (by simp [hu])⟩
    · -- Behind the body there are a brace and a gap.
      exfalso
      rcases x with _ | ⟨d, x⟩
      · cases hcx
      · rw [List.cons_append] at hx
        obtain ⟨rfl, he⟩ := List.cons.inj hx
        rcases List.mem_cons.1 hcx with rfl | hcx
        · cases hcode
        · rcases hr.cases he.symm with ⟨x', rfl⟩ | ⟨x', rfl⟩
          · rw [isBraceOrBlank, hg c (List.mem_append_left x' hcx), Bool.or_true] at hcode
            cases hcode
          · exact hm (by simp)

/-- The lines that a block takes from the header of a definition on are lines with code in its body. -/
theorem exists_code_of_taken {before head after : Text} (hs : s = before ++ (head ++ '{' :: (body ++ '}' :: after)))
    (hq : '"' ∉ s) (hbal : Balanced body) (ha : Aligned before head body after i) (ht : Taken (Text.lines s) b i k) :
    ∃ u c v, body = u ++ c :: v ∧ isBraceOrBlank c = false ∧ (before ++ (head ++ '{' :: u)).count '\n' = k := by
  obtain ⟨w, z, hwz, hw, rfl, hz⟩ := ha.clear
  obtain ⟨g, r, rfl, hg, hgn, hr⟩ := ha.closing
  have hopening : '\n' ∉ z ∨ '\n' ∈ body := ha.opening.imp_left fun h => by
    rw [hwz, List.count_append] at h
    exact List.count_eq_zero.1 (by omega)
  have hsw : s = w ++ (z ++ '{' :: (body ++ '}' :: (g ++ r))) := by
    rw [hs, ← List.append_assoc, hwz, List.append_assoc]
  obtain ⟨l, hl, hall⟩ := ht.code
  obtain ⟨p, m, e, hpm, hpe, rfl, hm, -, hlm⟩ := Text.exists_line hl
  obtain ⟨x, rfl, hx⟩ := exists_between (hsw.symm.trans hpm) ht.isOpen.before
  have hdeep := ht.deep
  rw [braces_eq_net (by rw [hpm, List.append_assoc]) hq hw (Text.EndsLine.right hpe)] at hdeep
  obtain ⟨c, hcl, hcode⟩ := List.all_eq_false.1 hall
  rw [Bool.not_eq_true] at hcode
  have hcm : c ∈ m := by
    rcases hlm with rfl | rfl
    · exact hcl
    · exact Text.mem_of_mem_dropReturn hcl
  -- The line begins behind the opening brace.
  obtain ⟨x₁, rfl, hx₁⟩ := exists_behind hx hz hdeep
  -- And before the closing one: past the definition no block is open.
  obtain ⟨y, rfl, hy⟩ : ∃ y, body = x₁ ++ y ∧ m ++ e = y ++ '}' :: (g ++ r) := by
    rcases List.append_eq_append_iff.1 hx₁ with ⟨y, rfl, hy⟩ | ⟨y, rfl, hy⟩
    · rcases y with _ | ⟨d, y⟩
      · exact ⟨[], by simp, hy.symm⟩
      · exfalso
        rw [List.cons_append] at hy
        obtain ⟨rfl, he⟩ := List.cons.inj hy
        have hny : Text.EndsLine ('}' :: y) := Text.EndsLine.right (w := w ++ (z ++ '{' :: body)) (by simpa using hpe)
        rcases hr.cases he.symm with ⟨y', rfl⟩ | ⟨y', rfl⟩
        · exact hgn (List.mem_append_left y' (by simpa using hny.mem (List.cons_ne_nil _ _)))
        · have hsx : s = w ++ (z ++ '{' :: (body ++ '}' :: (g ++ ['\n'])) ++ (y' ++ (m ++ e))) := by rw [hpm]; simp
          by_cases hn : '\n' ∈ body
          · exact not_open_past_body hsx rfl hq hw hz hbal hg hn (by simp [List.count_append]) ht.isOpen
          · exact not_open_past_line hsx rfl hq hw hz hbal hg hgn (hopening.resolve_right hn) hn ht.isOpen
    · exact ⟨y, rfl, hy⟩
  obtain ⟨u, v, rfl, hu⟩ := mem_body hy hg hr hm hcm hcode
  refine ⟨x₁ ++ u, c, v, by simp, hcode, ?_⟩
  have hcount : before ++ (head ++ '{' :: (x₁ ++ u)) = w ++ (z ++ '{' :: x₁) ++ u := by
    rw [← List.append_assoc, hwz]
    simp
  rw [hcount, List.count_append, List.count_eq_zero.2 hu, Nat.add_zero]

/-! ## Items -/

inductive Item where
  /-- A definition: what stands before its braces, and between them. -/
  | function (head body : Text)
  /-- A prototype or a variable, less its semicolon. -/
  | declaration (text : Text)
  | gap (text : Text)
  deriving DecidableEq, Repr

def Item.text : Item → Text
  | function head body => head ++ '{' :: (body ++ ['}'])
  | declaration text => text ++ [';']
  | gap text => text

def Item.WellFormed : Item → Prop
  | function head body => ';' ∉ head ∧ Braceless head ∧ Balanced body
  | declaration text => Balanced text
  | gap text => IsGap text

def source (items : List Item) : Text := items.flatMap Item.text

def functionName : Block → Text
  | .setup => "setup".toList
  | .loop => "loop".toList

/-- The header of the function of a block: its own name, without a result. -/
def Heads (b : Block) (head : Text) : Prop :=
  ∃ g₁ g₂ params g₃, IsGap g₁ ∧ g₁ ≠ [] ∧ IsGap g₂ ∧ IsGap g₃ ∧
    head = "void".toList ++ g₁ ++ functionName b ++ g₂ ++ '(' :: (params ++ ')' :: g₃)

/-- The line with this number has code between the braces of a definition of the block. -/
def Inside (items : List Item) (b : Block) (line : Nat) : Prop :=
  ∃ before head body after u c v, items = before ++ .function head body :: after ∧ Heads b head ∧
    body = u ++ c :: v ∧ isBraceOrBlank c = false ∧ (source before ++ (head ++ '{' :: u)).count '\n' + 1 = line

/-- A line begins a definition of the block, laid out so that the reader can follow it. -/
def Begins (items : List Item) (b : Block) (i : Nat) : Prop :=
  ∃ before head body after, items = before ++ .function head body :: after ∧ Heads b head ∧
    Aligned (source before) head body (source after) i

theorem source_split (before after : List Item) (head body : Text) :
    source (before ++ .function head body :: after) =
      source before ++ (head ++ '{' :: (body ++ '}' :: source after)) := by
  simp [source, Item.text]

/-- What a block takes from a sketch without strings and comments: exactly the lines that are `Taken`; and
these are lines with code in definitions of the block, if each line with its signature begins one that is
laid out so that the reader can follow it. -/
theorem taken_and_inside_of_begins {items : List Item} (hw : ∀ x ∈ items, x.WellFormed) (hp : Plain (source items))
    (b : Block) :
    (∀ x, x ∈ (Program.ofSource (source items)).block b ↔
      ∃ i k l, (Text.lines (source items))[k]? = some l ∧ Taken (Text.lines (source items)) b i k ∧
        x = ⟨Statement.ofLine (Text.trim l), Text.trim l, k + 1⟩) ∧
    ((∀ i, SignatureAt (Text.lines (source items)) b i → Begins items b i) →
      ∀ x ∈ (Program.ofSource (source items)).block b, Inside items b x.line) := by
  have hmem : ∀ x, x ∈ (Program.ofSource (source items)).block b ↔ _ := fun x => mem_block_iff hp.lines
  refine ⟨hmem, fun hbegins x hx => ?_⟩
  obtain ⟨i, k, l, -, ht, rfl⟩ := (hmem x).1 hx
  obtain ⟨before, head, body, after, rfl, hh, ha⟩ := hbegins i ht.isOpen.signature
  have hbal : Balanced body := (hw (.function head body) (by simp)).2.2
  obtain ⟨u, c, v, hbody, hcode, hk⟩ :=
    exists_code_of_taken (source_split before after head body) hp.quote hbal ha ht
  exact ⟨before, head, body, after, u, c, v, rfl, hh, hbody, hcode, congrArg (· + 1) hk⟩

instance : (x : Item) → Decidable x.WellFormed
  | .function head body => inferInstanceAs (Decidable (';' ∉ head ∧ Braceless head ∧ Balanced body))
  | .declaration text => inferInstanceAs (Decidable (Balanced text))
  | .gap text => inferInstanceAs (Decidable (IsGap text))

/-- A sketch in the usual layout, with a function that is neither block. -/
def blink : List Item :=
  [.declaration "int led = 13".toList, .gap "\n".toList,
    .function "int twice(int n) ".toList " return 2 * n; ".toList, .gap "\n".toList,
    .function "void loop()\n".toList "\n  digitalWrite(13, HIGH);\n  delay(500);\n".toList, .gap "\n".toList]

theorem taken_and_inside_of_begins_blink :
    (∀ x ∈ blink, x.WellFormed) ∧ Plain (source blink) ∧
      ((Program.ofSource (source blink)).block .loop).map Node.line = [5, 6] ∧
      ∀ x ∈ (Program.ofSource (source blink)).block .loop, Inside blink .loop x.line := by
  refine ⟨by decide +kernel, by decide +kernel, by decide +kernel,
    (taken_and_inside_of_begins (by decide +kernel) (by decide +kernel) .loop).2 fun i hi => ?_⟩
  obtain rfl : i = 2 := by
    have hlt : i < 7 := hi.lt_length
    have hall : ∀ j < 7, SignatureAt (Text.lines (source blink)) .loop j → j = 2 := by decide +kernel
    exact hall i hlt hi
  refine ⟨blink.take 4, "void loop()\n".toList, "\n  digitalWrite(13, HIGH);\n  delay(500);\n".toList,
    [.gap "\n".toList], rfl, ?_, ?_, ?_, ?_⟩
  · exact ⟨" ".toList, [], [], "\n".toList, by decide, by decide, by decide, by decide, by decide⟩
  · exact ⟨source (blink.take 4), "void loop()\n".toList, rfl,
      Or.inr ⟨"int led = 13;\nint twice(int n) \x7b return 2 * n; \x7d".toList, by decide⟩, by decide, by decide⟩
  · exact Or.inr (by decide)
  · exact ⟨[], "\n".toList, by decide, by decide, by decide, Or.inr ⟨[], rfl⟩⟩

/-- A function whose name ends in `setup` is taken for the block. -/
theorem block_takes_other_functions :
    ¬ ∀ items : List Item, (∀ x ∈ items, x.WellFormed) → Plain (source items) →
      ∀ b, ∀ x ∈ (Program.ofSource (source items)).block b, Inside items b x.line := by
  intro h
  have hin := h [.function "int servo_setup(void) ".toList "\n  delay(1);\n".toList, .gap "\n".toList]
    (by decide +kernel) (by decide +kernel) .setup ⟨.delay 1, "delay(1);".toList, 2⟩ (by decide +kernel)
  obtain ⟨before, head, body, after, -, -, -, hs, ⟨g₁, g₂, params, g₃, -, -, -, -, hh⟩, -⟩ := hin
  have hmem : Item.function head body ∈ before ++ .function head body :: after := by simp
  rw [← hs] at hmem
  have hhead : head = "int servo_setup(void) ".toList ∧ body = "\n  delay(1);\n".toList := by simpa using hmem
  have hfirst : some 'i' = some 'v' := congrArg List.head? (hhead.1.symm.trans hh)
  exact absurd hfirst (by decide)

end Breadboard.Sketch
