/-
  Breadboard.Proofs.Sketch.RoundTrip — a rendered sketch is read back as it was.

  Each statement that can be written is rendered as a line that spells it (`spells_render`).
  For the reader such a line is code of its block and nothing else: it has no comment, no
  brace in code and no signature, whatever a printed text holds (`Reader.step_render`). So a
  reader in a block takes the lines one after the other and stays where it is.

  Proved: reading a rendered sketch gives the statements of both blocks in their order, each
  with the number of its line, and nothing unrecognized (`ofSource_render`).
-/

import Mathlib
import Breadboard.Proofs.Sketch.Extent
import Breadboard.Proofs.Sketch.Spelling

namespace Breadboard.Sketch

open Zone

/-! ## The line of a statement -/

theorem signedNumber_signedDecimal {n : Int} (h : Text.isWord64 n = true) :
    SignedNumber (Text.signedDecimal n) n := by
  simp only [Text.isWord64, Bool.and_eq_true, decide_eq_true_eq] at h
  cases n with
  | ofNat n => exact .plain (digits_decimal n) (by simpa using h.2)
  | negSucc n => exact .minus (digits_decimal (n + 1)) (by omega)

theorem pinName_text {p : PinId} (h : p.IsWritable) : PinName p.text p := by
  cases p with
  | number n => exact .number (signedNumber_signedDecimal h)
  | named name =>
    obtain ⟨hid, hb⟩ := h
    cases name with
    | nil => cases hid
    | cons c t =>
      obtain ⟨hc, ht⟩ := isIdentifier_cons.1 hid
      exact .named hc ht hb

theorem modeName_word {m : PinMode} (h : m ≠ .unset) : ModeName m.word m := by
  cases m with
  | unset => exact absurd rfl h
  | input => exact .input
  | inputPullup => exact .inputPullup
  | output => exact .output

theorem levelName_word (l : Level) : LevelName l.word l := by
  cases l with
  | low => exact .low (w := "LOW") (by decide)
  | high => exact .high (w := "HIGH") (by decide)

theorem sizeNumber_decimal {n : Nat} (h : n ≤ Text.maxWord64) : SizeNumber (Text.decimal n) n := by
  have := SizeNumber.mk (u := []) (digits_decimal n) h (by simp)
  rwa [List.append_nil] at this

theorem IsWord.newline_not_mem {t : Text} (h : IsWord t) : '\n' ∉ t := by
  intro hm
  exact absurd (List.all_eq_true.1 h.2 _ hm) (by decide)

theorem newline_not_mem_quoted (t : Text) : '\n' ∉ quoted t := by
  simp [quoted, newline_not_mem_escape t]

/-- The line of a statement is a call that denotes it. -/
theorem exists_callLine {s : Statement} (h : s.IsWritable) :
    ∃ f args, s.render = callLine f args ∧ Denotes f args s ∧ ∀ a ∈ args, '\n' ∉ a := by
  cases s with
  | mode p m =>
    have hp := pinName_text h.1
    have hm := modeName_word h.2
    exact ⟨_, _, rfl, .pinMode hp hm, by simp [hp.isWord.newline_not_mem, hm.isWord.newline_not_mem]⟩
  | write p l =>
    have hp := pinName_text h
    have hl := levelName_word l
    exact ⟨_, _, rfl, .digitalWrite hp hl, by simp [hp.isWord.newline_not_mem, hl.isWord.newline_not_mem]⟩
  | delay d =>
    have hd := sizeNumber_decimal h
    exact ⟨_, _, rfl, .delay hd, by simp [hd.isWord.newline_not_mem]⟩
  | begin baud =>
    have hb : SizeNumber (Text.decimal baud) baud := sizeNumber_decimal (h.trans (by decide))
    exact ⟨_, _, rfl, .serialBegin hb h, by simp [hb.isWord.newline_not_mem]⟩
  | print text newline =>
    have ht : Printable (quoted text) text := .string (quotable_escape text)
    cases newline with
    | false => exact ⟨_, _, rfl, .serialPrint ht, by simp [newline_not_mem_quoted]⟩
    | true => exact ⟨_, _, rfl, .serialPrintln ht, by simp [newline_not_mem_quoted]⟩
  | unrecognized => exact absurd h id

theorem listed_intercalate (args : List Text) {g : Text} (hg : IsGap g) :
    Listed args (g ++ List.intercalate ", ".toList args) := by
  have hnil : IsGap [] := by decide
  induction args generalizing g with
  | nil => simpa using Listed.none hg
  | cons a args ih =>
    cases args with
    | nil => simpa using Listed.one (a := a) hg hnil
    | cons b args =>
      have := Listed.more (a := a) hg hnil (ih (g := " ".toList) (by decide))
      simpa [List.intercalate_cons_cons] using this

theorem newline_not_mem_intercalate {args : List Text} (h : ∀ a ∈ args, '\n' ∉ a) :
    '\n' ∉ List.intercalate ", ".toList args := by
  induction args with
  | nil => exact List.not_mem_nil
  | cons a args ih =>
    rw [List.forall_mem_cons] at h
    cases args with
    | nil => simpa using h.1
    | cons b args =>
      rw [List.intercalate_cons_cons, List.mem_append, List.mem_append, not_or, not_or]
      exact ⟨⟨h.1, by decide⟩, ih h.2⟩

theorem callLine_eq (f : Callee) (args : List Text) :
    callLine f args = f.name ++ [] ++ '(' :: List.intercalate ", ".toList args ++ [')'] ++ [';'] := by
  simp [callLine]

theorem spells_callLine {f : Callee} {args : List Text} {s : Statement} (h : Denotes f args s) :
    Spells (callLine f args) s := by
  have hnil : IsGap [] := by decide
  have := Spells.call hnil hnil h (listed_intercalate args hnil) (.semicolon hnil hnil) .none
  rw [callLine_eq]
  simpa using this

theorem spells_render {s : Statement} (h : s.IsWritable) : Spells s.render s := by
  obtain ⟨f, args, hr, hd, -⟩ := exists_callLine h
  rw [hr]
  exact spells_callLine hd

/-! ## What the reader sees of it -/

/-- A word and an opening parenthesis are not found before another parenthesis that the word does not come
before. -/
theorem contains_eq_false {w n t : Text} (hn : '(' ∉ n) (ht : '(' ∉ t) (hw : ¬ w <:+ n) :
    Text.contains (w ++ ['(']) (n ++ '(' :: t) = false := by
  rcases hc : Text.cut (w ++ ['(']) (n ++ '(' :: t) with _ | ⟨u, v⟩
  · rw [Text.contains, hc]; rfl
  · exfalso
    have he := Text.cut_append hc
    rw [List.append_assoc, List.append_assoc, List.singleton_append, ← List.append_assoc] at he
    have hu : '(' ∉ u ++ w := by
      have hcount := congrArg (List.count '(') he
      rw [List.count_append, List.count_append, List.count_cons_self, List.count_cons_self,
        List.count_eq_zero.2 hn, List.count_eq_zero.2 ht] at hcount
      exact List.count_eq_zero.1 (by omega)
    have h1 := Text.cut_of_not_mem hn t
    rw [he, Text.cut_of_not_mem hu v] at h1
    obtain ⟨rfl, -⟩ := Prod.mk.inj (Option.some.inj h1)
    exact hw (List.suffix_append u w)

theorem signature?_eq_none {f : Callee} {t : Text} (h : AllCode (· ≠ '(') .code t) :
    signature? (f.name ++ '(' :: t) = none := by
  have hq : '"' ∉ f.name ++ ['('] := by cases f <;> decide
  have ho : outline .code (f.name ++ '(' :: t) = f.name ++ '(' :: outline .code t := by
    have := outline_append .code (f.name ++ ['(']) t
    rw [outline_code hq, after_code hq] at this
    simpa using this
  have ht : '(' ∉ outline .code t := fun hm => mem_outline h (by decide) hm rfl
  have hc : ∀ w : Text, ¬ w <:+ f.name → Text.contains (w ++ ['(']) (f.name ++ '(' :: outline .code t) = false :=
    fun w hw => contains_eq_false (by cases f <;> decide) ht hw
  have hs := hc "setup".toList (by cases f <;> decide)
  have hl := hc "loop".toList (by cases f <;> decide)
  simp only [signature?, ho]
  rw [show "setup(".toList = "setup".toList ++ ['('] from rfl, show "loop(".toList = "loop".toList ++ ['('] from rfl,
    hs, hl]
  simp

/-- A line that is code and no more. -/
structure CodeLine (l : Text) : Prop where
  free : CommentFree l
  trim : Text.trim l = l
  unsigned : signature? l = none
  flat : Zone.netBraces .code l = 0
  code : l.all isBraceOrBlank = false

theorem codeLine_callLine {f : Callee} {args : List Text} (ha : ∀ a ∈ args, Token a) : CodeLine (callLine f args) := by
  have hnil : IsGap [] := by decide
  have hi := listed_intercalate args hnil
  have hs := (stretch_call (f := f) hnil ha hi).append (stretch_of_forall (t := [';']) (by decide) (by simp [isMark]))
  rw [List.nil_append, ← callLine_eq] at hs
  have hslash : AllCode (· ≠ '/') .code (callLine f args) := (hs.ne (by decide)).allCode
  have hbrace := (hs.mono (q := (Zone.braceValue · = 0)) fun c hc => by
    unfold Zone.braceValue
    split
    · revert hc; decide
    · revert hc; decide
    · rfl).allCode
  refine ⟨⟨cutCode_eq_none_of_allCode hslash _, cutCode_eq_none_of_allCode hslash _⟩, ?_, ?_, ?_, ?_⟩
  · have hsemi : Text.Solid [';'] := Text.solid_singleton (by decide)
    have := (solid_call f [] (List.intercalate ", ".toList args)).append hsemi []
    rw [List.nil_append, ← callLine_eq] at this
    exact this.trim
  · have hend : Stretch (· ≠ '(') ");".toList := stretch_of_forall (by decide) (by simp)
    have hinner := ((stretch_of_listed hi ha).ne (a := '(') (by decide)).append hend
    have := signature?_eq_none (f := f) hinner.allCode
    simpa [callLine] using this
  · exact netBraces_of_allCode hbrace
  · cases f <;> rfl

theorem codeLine_render {s : Statement} (h : s.IsWritable) : CodeLine s.render := by
  obtain ⟨f, args, hr, hd, -⟩ := exists_callLine h
  rw [hr]
  exact codeLine_callLine hd.tokens

theorem newline_not_mem_render {s : Statement} (h : s.IsWritable) : '\n' ∉ s.render := by
  obtain ⟨f, args, hr, -, ha⟩ := exists_callLine h
  rw [hr, callLine]
  simp only [List.mem_append, not_or]
  exact ⟨⟨⟨f.isWord_name.newline_not_mem, by decide⟩, newline_not_mem_intercalate ha⟩, by decide⟩

theorem dropReturn_render {s : Statement} (h : s.IsWritable) : Text.dropReturn s.render = s.render := by
  obtain ⟨f, args, hr, -, -⟩ := exists_callLine h
  rw [hr, callLine, Text.dropReturn_append _ (by decide)]
  rfl

namespace Reader

theorem step_codeLine {r : Reader} {l : Text} {b : Block} (h : CodeLine l) (hr : r.inComment = false)
    (hb : r.block = some b) (hd : 0 < r.depth) : r.step l = (r, some (b, l)) := by
  have hfst : (r.step l).1 = r := by
    rw [step_fst hr h.free, h.trim, h.unsigned, hb, h.flat]
    exact shift_zero r
  have hsnd : (r.step l).2 = some (b, l) :=
    (step_snd_iff hr h.free).2 ⟨h.trim.symm, h.trim.symm ▸ h.unsigned, hb, hd, h.code⟩
  exact Prod.ext hfst hsnd

end Reader

/-! ## Blocks -/

/-- The nodes of statements that stand on lines of their own from line `n` on. -/
def nodes (n : Nat) (statements : List Statement) : List Node :=
  statements.mapIdx fun k s => ⟨s, s.render, n + k⟩

theorem nodes_cons (n : Nat) (s : Statement) (statements : List Statement) :
    nodes n (s :: statements) = ⟨s, s.render, n⟩ :: nodes (n + 1) statements := by
  simp only [nodes, List.mapIdx_cons, Nat.add_zero]
  congr 2
  funext k s
  rw [Nat.add_assoc, Nat.add_comm 1]

theorem ofLine_render {s : Statement} (h : s.IsWritable) : Statement.ofLine s.render = s := by
  rw [Statement.ofLine, ofLine?_of_spells (spells_render h)]
  rfl

variable {statements : List Statement}

/-- A reader in a block takes each line of a statement and stays in the block. -/
theorem readFrom_statements (h : ∀ s ∈ statements, s.IsWritable) (b : Block) (n : Nat) :
    ((Reader.opened b).readFrom n (statements.map Statement.render)).1 = .opened b ∧
      ∀ b', ((Reader.opened b).readFrom n (statements.map Statement.render)).2.block b' =
        if b = b' then nodes n statements else [] := by
  induction statements generalizing n with
  | nil => exact ⟨rfl, fun b' => by simp [Reader.readFrom, nodes]⟩
  | cons s statements ih =>
    rw [List.forall_mem_cons] at h
    obtain ⟨hr, hp⟩ := ih h.2 (n + 1)
    have hs := Reader.step_codeLine (r := .opened b) (codeLine_render h.1) rfl rfl Int.one_pos
    rw [List.map_cons, Reader.readFrom_cons, hs]
    refine ⟨hr, fun b' => ?_⟩
    dsimp only
    rw [Program.block_cons, hp, ofLine_render h.1, nodes_cons]
    split <;> rfl

theorem readFrom_header (b : Block) (style : BraceStyle) (n : Nat) :
    ({} : Reader).readFrom n (header b style) = (.opened b, {}) := by
  cases style with
  | sameLine =>
    rw [header, ← opening, Reader.readFrom_cons, step_opening]
    rfl
  | ownLine =>
    have hsign : ({} : Reader).step (signatureOf b) = ({ block := some b }, none) := by cases b <;> decide +kernel
    have hbrace : ({ block := some b } : Reader).step "\x7b".toList = (.opened b, none) := by
      cases b <;> decide +kernel
    rw [header, Reader.readFrom_cons, hsign, Reader.readFrom_cons, hbrace]
    rfl

theorem readFrom_blockLines (h : ∀ s ∈ statements, s.IsWritable) (b : Block) (style : BraceStyle) (n : Nat) :
    (({} : Reader).readFrom n (blockLines b style statements)).1 = {} ∧
      ∀ b', (({} : Reader).readFrom n (blockLines b style statements)).2.block b' =
        if b = b' then nodes (n + (header b style).length) statements else [] := by
  have hclose : (Reader.opened b).step "\x7d".toList = ({}, none) := by cases b <;> decide +kernel
  obtain ⟨hr, hp⟩ := readFrom_statements h b (n + (header b style).length)
  rw [blockLines, List.append_assoc, Reader.readFrom_append, readFrom_header, Reader.readFrom_append, hr,
    Reader.readFrom_cons, hclose]
  refine ⟨rfl, fun b' => ?_⟩
  simp [Program.block_append, hp, Reader.readFrom]

/-! ## Sketches -/

/-- The number of the line of the first statement of a block. -/
def firstLine (style : Block → BraceStyle) (statements : Block → List Statement) : Block → Nat
  | .setup => 1 + (header .setup (style .setup)).length
  | .loop =>
    1 + (blockLines .setup (style .setup) (statements .setup)).length + (header .loop (style .loop)).length

theorem blockLines_whole (h : ∀ s ∈ statements, s.IsWritable) (b : Block) (style : BraceStyle) :
    ∀ l ∈ blockLines b style statements, '\n' ∉ l ∧ Text.dropReturn l = l := by
  have hh : ∀ l ∈ header b style, '\n' ∉ l ∧ Text.dropReturn l = l := by cases b <;> cases style <;> decide
  intro l hl
  rw [blockLines, List.mem_append, List.mem_append, List.mem_map, List.mem_singleton] at hl
  rcases hl with (hl | ⟨s, hs, rfl⟩) | rfl
  · exact hh l hl
  · exact ⟨newline_not_mem_render (h s hs), dropReturn_render (h s hs)⟩
  · decide

theorem lines_render (style : Block → BraceStyle) {statements : Block → List Statement}
    (h : ∀ b, ∀ s ∈ statements b, s.IsWritable) :
    Text.lines (render style statements) =
      blockLines .setup (style .setup) (statements .setup) ++ blockLines .loop (style .loop) (statements .loop) := by
  have hw : ∀ l ∈ blockLines .setup (style .setup) (statements .setup) ++
      blockLines .loop (style .loop) (statements .loop), '\n' ∉ l ∧ Text.dropReturn l = l := by
    intro l hl
    rcases List.mem_append.1 hl with hl | hl
    · exact blockLines_whole (h .setup) .setup (style .setup) l hl
    · exact blockLines_whole (h .loop) .loop (style .loop) l hl
  have hl := Text.lines_completed (fun l hm => (hw l hm).1) []
  rw [List.append_nil] at hl
  rw [render, hl, List.map_congr_left fun l hm => (hw l hm).2, List.map_id']
  exact List.append_nil _

/-- The statements of a block stand in the source from the first line of the block on. -/
theorem exists_lines_render (style : Block → BraceStyle) {statements : Block → List Statement}
    (h : ∀ b, ∀ s ∈ statements b, s.IsWritable) (b : Block) :
    ∃ p q, Text.lines (render style statements) = p ++ ((statements b).map Statement.render ++ q) ∧
      firstLine style statements b = 1 + p.length := by
  rw [lines_render style h]
  cases b with
  | setup =>
    refine ⟨header .setup (style .setup), "\x7d".toList :: blockLines .loop (style .loop) (statements .loop), ?_, rfl⟩
    simp only [blockLines, List.append_assoc, List.singleton_append]
  | loop =>
    refine ⟨blockLines .setup (style .setup) (statements .setup) ++ header .loop (style .loop), ["\x7d".toList],
      by simp only [blockLines, List.append_assoc], ?_⟩
    rw [firstLine, List.length_append, Nat.add_assoc]

theorem mem_nodes {n : Nat} {x : Node} :
    x ∈ nodes n statements ↔ ∃ k s, statements[k]? = some s ∧ x = ⟨s, s.render, n + k⟩ := by
  simp only [nodes, List.mem_iff_getElem?, List.getElem?_mapIdx, Option.map_eq_some_iff, eq_comm (b := x)]

theorem block_ofSource_render (style : Block → BraceStyle) {statements : Block → List Statement}
    (h : ∀ b, ∀ s ∈ statements b, s.IsWritable) (b : Block) :
    (Program.ofSource (render style statements)).block b = nodes (firstLine style statements b) (statements b) := by
  obtain ⟨hr, hs⟩ := readFrom_blockLines (h .setup) .setup (style .setup) 1
  obtain ⟨-, hl⟩ := readFrom_blockLines (h .loop) .loop (style .loop)
    (1 + (blockLines .setup (style .setup) (statements .setup)).length)
  rw [Program.ofSource, Reader.read, lines_render style h, Reader.readFrom_append, Program.block_append, hr, hs, hl]
  cases b with
  | setup => exact List.append_nil _
  | loop => rfl

/-- Reading a rendered sketch gives its statements in their order, each with the number and the text of its
line, and nothing unrecognized. -/
theorem ofSource_render (style : Block → BraceStyle) {statements : Block → List Statement}
    (h : ∀ b, ∀ s ∈ statements b, s.IsWritable) :
    Program.ofSource (render style statements) =
        ⟨nodes (firstLine style statements .setup) (statements .setup),
          nodes (firstLine style statements .loop) (statements .loop)⟩ ∧
      (Program.ofSource (render style statements)).unrecognizedCount = 0 ∧
      ∀ b, ∀ x ∈ (Program.ofSource (render style statements)).block b,
        (Text.lines (render style statements))[x.line - 1]? = some x.text := by
  have hp := Program.ext_block (q := ⟨nodes (firstLine style statements .setup) (statements .setup),
    nodes (firstLine style statements .loop) (statements .loop)⟩) fun b => by
      rw [block_ofSource_render style h]
      cases b <;> rfl
  refine ⟨hp, ?_, ?_⟩
  · rw [hp, Program.unrecognizedCount, List.countP_eq_zero]
    intro x hx hu
    obtain ⟨b, hb⟩ : ∃ b, x ∈ nodes (firstLine style statements b) (statements b) := by
      rcases List.mem_append.1 hx with hx | hx
      · exact ⟨.setup, hx⟩
      · exact ⟨.loop, hx⟩
    obtain ⟨k, s, hs, rfl⟩ := mem_nodes.1 hb
    obtain rfl : s = .unrecognized := of_decide_eq_true hu
    exact h b _ (List.mem_of_getElem? hs)
  · intro b x hx
    rw [block_ofSource_render style h] at hx
    obtain ⟨k, s, hs, rfl⟩ := mem_nodes.1 hx
    obtain ⟨p, q, hl, hn⟩ := exists_lines_render style h b
    have hk : k < ((statements b).map Statement.render).length := by
      rw [List.length_map]
      exact (List.getElem?_eq_some_iff.1 hs).1
    rw [hl, hn, show 1 + p.length + k - 1 = p.length + k by omega, List.getElem?_append_right (by omega),
      Nat.add_sub_cancel_left, List.getElem?_append_left hk, List.getElem?_map, hs]
    rfl

/-- A sketch that prints what the reader looks for. -/
def babble : Block → List Statement
  | .setup => [.begin 9600, .mode (.named "led".toList) .output]
  | .loop => [.print "void setup(\"/* \x7b\n".toList true, .write (.number (-1)) .high, .delay 500]

theorem ofSource_render_babble :
    (∀ b, ∀ s ∈ babble b, s.IsWritable) ∧
      (Program.ofSource (render (fun _ => .ownLine) babble)).setup.map (fun x => (x.line, x.statement)) =
        [(3, .begin 9600), (4, .mode (.named "led".toList) .output)] ∧
      (Program.ofSource (render (fun _ => .ownLine) babble)).loop.map (fun x => (x.line, x.statement)) =
        [(8, .print "void setup(\"/* \x7b\n".toList true), (9, .write (.number (-1)) .high), (10, .delay 500)] := by
  have h : ∀ b, ∀ s ∈ babble b, s.IsWritable := by
    intro b s hs
    cases b <;> simp only [babble, List.mem_cons, List.not_mem_nil, or_false] at hs
    · rcases hs with rfl | rfl
      · exact (by decide : 9600 ≤ Text.maxWord32)
      · exact ⟨⟨by decide, by decide⟩, by decide⟩
    · rcases hs with rfl | rfl | rfl
      · trivial
      · exact (by decide : Text.isWord64 (-1) = true)
      · exact (by decide : 500 ≤ Text.maxWord64)
  have hp := (ofSource_render (fun _ => .ownLine) h).1
  refine ⟨h, ?_, ?_⟩
  · rw [hp]; rfl
  · rw [hp]; rfl

end Breadboard.Sketch
