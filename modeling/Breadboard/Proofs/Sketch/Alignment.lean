/-
  Breadboard.Proofs.Sketch.Alignment — the nodes of a program stand where their source lines stand.

  A node keeps the number of its line and the text that is left of it. Both come from one scan of
  the source, which passes over lines, drops comments and changes blocks; whatever the source is,
  the numbers rise within each block, no line gives two nodes, and the text is a trimmed piece of
  code with its own statement.

  Proved: the numbers of a block are strictly increasing (`Reader.pairwise_readFrom`), a line gives
  its node to one block only (`Reader.block_unique`), what is kept of a line is code
  (`kept?_eq_some_iff`), and of a source without block comments it is the whole trimmed line
  (`Reader.exists_line_of_no_opener`); all together `nodes_aligned`.
-/

import Mathlib
import Breadboard.Proofs.Sketch.Reading
import Breadboard.Proofs.Sketch.Scan

namespace Breadboard.Sketch

/-! ## What is kept of a line -/

theorem kept?_eq_some_iff {u t : Text} :
    kept? u = some t ↔ t = Text.trim u ∧ t ≠ [] ∧ ¬ lineMark <+: t := by
  have hmark : (Text.dropPrefix? lineMark (Text.trim u)).isSome = true ↔ lineMark <+: Text.trim u := by
    rw [Option.isSome_iff_exists]
    constructor
    · intro h0
      obtain ⟨rest, h⟩ := h0
      exact ⟨rest, (Text.dropPrefix?_eq_some_iff.1 h).symm⟩
    · intro h0
      obtain ⟨rest, h⟩ := h0
      exact ⟨rest, Text.dropPrefix?_eq_some_iff.2 h.symm⟩
  simp only [kept?, Bool.or_eq_true, List.isEmpty_iff, hmark]
  split
  · next dropped =>
    constructor
    · intro h
      cases h
    · intro h0
      obtain ⟨rfl, hne, hno⟩ := h0
      exact absurd dropped (not_or.2 ⟨hne, hno⟩)
  · next kept =>
    obtain ⟨hne, hno⟩ := not_or.1 kept
    constructor
    · intro h
      obtain rfl := Option.some.inj h
      exact ⟨rfl, hne, hno⟩
    · intro h0
      rw [h0.1]

theorem newline_not_mem_kept? {flag : Bool} {l t : Text} (h : '\n' ∉ l) (hk : kept? (uncomment flag l).1 = some t) :
    '\n' ∉ t := by
  obtain ⟨rfl, -, -⟩ := kept?_eq_some_iff.1 hk
  intro hn
  have := (Text.trim_infix _).subset hn
  rw [uncomment_eq_pass] at this
  exact h ((Place.pass_sublist _ _).subset this)

namespace Reader

variable {r : Reader} {n : Nat} {ls : List Text} {b b' : Block} {x y : Node}

/-! ## Numbers -/

theorem pairwise_readFrom (r : Reader) (n : Nat) (ls : List Text) (b : Block) :
    (((r.readFrom n ls).2.block b).map (·.line)).Pairwise (· < ·) := by
  rw [List.pairwise_map, block_readFrom]
  refine List.Pairwise.filterMap _ (fun i j hij x hx y hy => ?_) List.pairwise_lt_range
  obtain ⟨-, -, -, -, rfl⟩ := node?_eq_some_iff.1 hx
  obtain ⟨-, -, -, -, rfl⟩ := node?_eq_some_iff.1 hy
  show n + i < n + j
  omega

/-- A line gives its node to one block only. -/
theorem block_unique (hx : x ∈ (r.readFrom n ls).2.block b) (hy : y ∈ (r.readFrom n ls).2.block b')
    (h : x.line = y.line) : b = b' := by
  obtain ⟨k, l, text, hl, hs, rfl⟩ := mem_readFrom.1 hx
  obtain ⟨k', l', text', hl', hs', rfl⟩ := mem_readFrom.1 hy
  obtain rfl : k = k' := by
    have : n + k = n + k' := h
    omega
  rw [hl] at hl'
  obtain rfl := Option.some.inj hl'
  rw [hs] at hs'
  exact congrArg Prod.fst (Option.some.inj hs')

/-- The line that a node comes from. -/
theorem exists_line (hx : x ∈ (r.readFrom n ls).2.block b) :
    ∃ k l, ls[k]? = some l ∧ x.line = n + k ∧ x.statement = Statement.ofLine x.text ∧
      kept? (uncomment (r.readFrom n (ls.take k)).1.inComment l).1 = some x.text := by
  obtain ⟨k, l, text, hl, hs, rfl⟩ := mem_readFrom.1 hx
  exact ⟨k, l, hl, rfl, rfl, (step_snd.1 hs).1⟩

/-! ## Sources without block comments -/

/-- Where no mark opens a block comment none is open. -/
theorem inComment_of_no_opener (hr : r.inComment = false) (h : ∀ l ∈ ls, ¬ openMark <:+: l) :
    (r.readFrom n ls).1.inComment = false := by
  induction ls generalizing r n with
  | nil => exact hr
  | cons l ls ih =>
    rw [List.forall_mem_cons] at h
    rw [readFrom_cons]
    refine ih ?_ h.2
    rw [step_inComment, hr, uncomment_of_not_cutCode (cutCode_eq_none h.1 .code)]

theorem exists_line_of_no_opener (hr : r.inComment = false) (h : ∀ l ∈ ls, ¬ openMark <:+: l)
    (hx : x ∈ (r.readFrom n ls).2.block b) : ∃ k l, ls[k]? = some l ∧ x.line = n + k ∧ x.text = Text.trim l := by
  obtain ⟨k, l, hl, hline, -, hkept⟩ := exists_line hx
  have hflag : (r.readFrom n (ls.take k)).1.inComment = false :=
    inComment_of_no_opener hr fun l hl => h l (List.mem_of_mem_take hl)
  rw [hflag, uncomment_of_not_cutCode (cutCode_eq_none (h l (List.mem_of_getElem? hl)) .code)] at hkept
  exact ⟨k, l, hl, hline, (kept?_eq_some_iff.1 hkept).1⟩

end Reader

/-- In the program of any source the line numbers of each block rise strictly and lie between one and the number of
source lines, and no line stands in both blocks; the text of a node is not empty, has no blanks at its ends and no line
feed, does not begin with a line comment, and denotes the node's statement; and if the source has no mark of a block
comment in it, the text is the source line of that number without the blanks around it. -/
theorem nodes_aligned (source : Text) :
    let program := Program.ofSource source
    let lines := Text.lines source
    (∀ b, ((program.block b).map (·.line)).Pairwise (· < ·)) ∧
      (∀ x ∈ program.setup, ∀ y ∈ program.loop, x.line ≠ y.line) ∧
      (∀ b, ∀ x ∈ program.block b,
        1 ≤ x.line ∧ x.line ≤ lines.length ∧
          x.text ≠ [] ∧ Text.trim x.text = x.text ∧ ¬ lineMark <+: x.text ∧ '\n' ∉ x.text ∧
          x.statement = Statement.ofLine x.text) ∧
      (¬ openMark <:+: source →
        ∀ b, ∀ x ∈ program.block b, ∃ l, lines[x.line - 1]? = some l ∧ x.text = Text.trim l) := by
  intro program lines
  refine ⟨Reader.pairwise_readFrom {} 1 lines, ?_, ?_, ?_⟩
  · intro x hx y hy h
    have hx : x ∈ program.block .setup := hx
    have hy : y ∈ program.block .loop := hy
    cases Reader.block_unique hx hy h
  · intro b x hx
    obtain ⟨k, l, hl, hline, hstatement, hkept⟩ := Reader.exists_line hx
    obtain ⟨htext, hne, hno⟩ := kept?_eq_some_iff.1 hkept
    have hk : k < lines.length := (List.getElem?_eq_some_iff.1 hl).1
    have hn : '\n' ∉ l := Text.newline_not_mem_line (List.mem_of_getElem? hl)
    exact ⟨by omega, by omega, hne, by rw [htext, Text.trim_trim], hno, newline_not_mem_kept? hn hkept, hstatement⟩
  · intro noOpener b x hx
    have hls : ∀ l ∈ lines, ¬ openMark <:+: l := fun l hl h => noOpener (h.trans (Text.infix_of_mem_lines hl))
    obtain ⟨k, l, hl, hline, htext⟩ := Reader.exists_line_of_no_opener rfl hls hx
    have hk : x.line - 1 = k := by omega
    exact ⟨l, by rw [hk]; exact hl, htext⟩

/-- A node with a remark behind its statement, on a line that ends in a carriage return and a line feed. -/
theorem nodes_aligned_blink :
    let source := "void setup() \x7b\n\x7d\nvoid loop() \x7b\n\t if (on) \x7b delay(5); \x7d // wait\r\n  \x7d\n".toList
    let x : Node := ⟨.unrecognized, "if (on) \x7b delay(5); \x7d // wait".toList, 4⟩
    ¬ openMark <:+: source ∧ x ∈ (Program.ofSource source).loop ∧
      Text.trim x.text = x.text ∧ x.statement = Statement.ofLine x.text ∧
      ∃ l, (Text.lines source)[3]? = some l ∧ x.text = Text.trim l := by
  intro source x
  obtain ⟨-, -, aligned, whole⟩ := nodes_aligned source
  have noOpener : ¬ openMark <:+: source := by decide +kernel
  have member : x ∈ (Program.ofSource source).loop := by decide +kernel
  obtain ⟨-, -, -, trimmed, -, -, denoted⟩ := aligned .loop x member
  exact ⟨noOpener, member, trimmed, denoted, whole noOpener .loop x member⟩

end Breadboard.Sketch
